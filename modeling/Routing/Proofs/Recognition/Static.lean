import Routing.Proofs.Generation.Intent
import Routing.Proofs.Generation.Link
import Routing.Proofs.Recognition.Accepted
import Routing.Proofs.Recognition.Components

/-!
# Patterns of plain text

A pattern without captures and globs describes a single path, which is made of its own components
as they are written. The components of a request path are compared with these after they have been
decoded, so that a percent sign in the pattern can only be the beginning of a placeholder, and
stands for what the placeholder stands for.

* `Path.map_mark_eq_iff`, `Path.decode_normalize_eq_iff` — which paths are decoded to a pattern
* `Path.mark_decode_ne`, `Path.decode_normalize_ofComponents` — which are decoded to themselves
* `Declaration.IsStatic`, `Route.IsStatic` — such patterns and their routes
* `Route.IsStatic.isSome_match`, `Route.IsStatic.exists_generate` — what they match and render
* `Table.recognize_static` — what is recognised, and whether the route's own links are
-/

namespace Routing

/-! ## Texts in paths -/

namespace Path

variable {texts : List Text}

theorem map_eq_self_iff {f : Text → Text} : texts.map f = texts ↔ ∀ t ∈ texts, f t = t := by
  conv_lhs => rhs; rw [← List.map_id texts]
  exact List.map_inj_left

/-- Placeholders can be put for the characters of one text only. -/
theorem map_mark_eq_iff {decoded : List Text} : decoded.map mark = texts ↔
    decoded = texts.map restore ∧ ∀ t ∈ texts, mark (restore t) = t := by
  constructor
  · rintro rfl
    refine ⟨?_, List.forall_mem_map.2 fun u _ => congrArg mark (restore_mark u)⟩
    rw [List.map_map]
    exact (map_eq_self_iff.2 fun u _ => restore_mark u).symm
  · rintro ⟨rfl, h⟩
    rw [List.map_map]
    exact map_eq_self_iff.2 h

/-- Which paths are decoded to these components. -/
theorem decode_normalize_eq_iff {p : Text} (h : ∀ t ∈ texts, t ≠ [] ∧ '/' ∉ t) :
    decode (normalize p) = ofComponents texts ↔
      (components (beforeQuery p)).map Percent.decode = texts.map restore ∧
        ∀ t ∈ texts, mark (restore t) = t := by
  rw [← map_mark_eq_iff, List.map_map]
  constructor
  · intro hp
    have hcomponents := components_decode_normalize p
    rw [hp, components_ofComponents h] at hcomponents
    exact hcomponents.symm
  · intro hp
    rw [decode_normalize_eq_ofComponents]
    exact congrArg ofComponents hp

/-! ### Question marks -/

/-- The path ends at the question mark. -/
theorem beforeQuery_append {p : Text} (hp : '?' ∉ p) (q : Text) :
    beforeQuery (p ++ '?' :: q) = p := by
  rw [beforeQuery, List.takeWhile_append_of_pos, List.takeWhile_cons_of_neg (by decide),
    List.append_nil]
  intro c hc
  rw [decide_eq_true_iff]
  rintro rfl
  exact hp hc

/-- A percent sign begins a placeholder. -/
theorem mark_eq_percent {s t : Text} (h : mark s = '%' :: t) :
    ∃ c low s', s = c :: s' ∧ t = '2' :: low :: mark s' ∧
      (c = '%' ∧ low = '5' ∨ c = '/' ∧ low = 'F') := by
  cases s with
  | nil => cases h
  | cons c s =>
    rw [mark_cons] at h
    split at h
    · next hc => exact ⟨c, '5', s, rfl, (List.cons.inj h).2.symm, .inl ⟨hc, rfl⟩⟩
    · split at h
      · next hc => exact ⟨c, 'F', s, rfl, (List.cons.inj h).2.symm, .inr ⟨hc, rfl⟩⟩
      · next hc _ => exact absurd (List.cons.inj h).1 hc

/-- What a text is decoded to never goes on, after the text itself, with a question mark. -/
theorem mark_decode_ne (u w : Text) : mark (Percent.decode u) ≠ u ++ '?' :: w := by
  rw [Percent.decode]
  -- by the decoding: in every case the first character goes against the same place of the other
  -- side
  fun_induction Percent.bytes u with
  | case1 h l s h' l' hl hh ih =>
    -- an escape that is left as it is stands for a percent sign or a slash
    intro heq
    obtain ⟨c, low, s', hs', htail, hcode⟩ := mark_eq_percent heq
    obtain ⟨rfl, hrest⟩ := List.cons.inj htail
    obtain ⟨rfl, hmore⟩ := List.cons.inj hrest
    have htext : Utf8.decode (Percent.bytes s) = s' := by
      cases hh
      rcases hcode with ⟨rfl, rfl⟩ | ⟨rfl, rfl⟩
      · cases hl
        exact (List.cons.inj ((Utf8.decode_encode_append '%' _).symm.trans hs')).2
      · cases hl
        exact (List.cons.inj ((Utf8.decode_encode_append '/' _).symm.trans hs')).2
    rw [← htext] at hmore
    exact ih hmore.symm
  | case2 h l s hnone ih =>
    intro heq
    rw [Utf8.decode_encode_append] at heq
    obtain ⟨rfl, htail⟩ := List.cons.inj (List.cons.inj heq).2
    obtain ⟨rfl, -⟩ := List.cons.inj htail
    exact hnone 2 5 rfl rfl
  | case3 c s hc ih =>
    intro heq
    rw [Utf8.decode_encode_append, mark_cons] at heq
    split at heq
    · next hpercent =>
      -- fewer than two characters follow, and the placeholder goes on after them
      subst hpercent
      rcases s with _ | ⟨d, _ | ⟨e, s⟩⟩
      · cases (List.cons.inj (List.cons.inj heq).2).1
      · cases (List.cons.inj (List.cons.inj (List.cons.inj heq).2).2).1
      · exact hc d e s rfl rfl
    · split at heq
      · next hslash =>
        subst hslash
        cases (List.cons.inj heq).1
      · exact ih (List.cons.inj heq).2
  | case4 =>
    intro heq
    rw [Utf8.decode] at heq
    cases heq

/-- A path is decoded to itself when each of its components is and no question mark ends it. -/
theorem decode_normalize_ofComponents (h : ∀ t ∈ texts, t ≠ [] ∧ '/' ∉ t) :
    decode (normalize (ofComponents texts)) = ofComponents texts ↔
      ∀ t ∈ texts, '?' ∉ t ∧ decodeComponent t = t := by
  have hwhole : decode (normalize (ofComponents texts)) = ofComponents texts ↔
      (components (beforeQuery (ofComponents texts))).map (fun t => mark (Percent.decode t)) =
        texts := by
    rw [decode_normalize_eq_iff h, ← map_mark_eq_iff, List.map_map]
    rfl
  rw [hwhole]
  by_cases hquery : ∀ t ∈ texts, '?' ∉ t
  · have hplain : '?' ∉ ofComponents texts := by
      intro hmem
      rcases List.mem_cons.1 hmem with hmem | hmem
      · exact absurd hmem (by decide)
      · rcases mem_of_mem_intercalate hmem with hmem | ⟨t, ht, hmem⟩
        · exact absurd hmem (by decide)
        · exact hquery t ht hmem
    rw [beforeQuery_of_plain hplain, components_ofComponents h, map_eq_self_iff]
    refine forall₂_congr fun t ht => ?_
    rw [decodeComponent_eq_mark (h t ht).2, and_iff_right (hquery t ht)]
  · refine iff_of_false ?_ fun hall => hquery fun t ht => (hall t ht).1
    -- the path ends inside the first component with a question mark
    have hsome : (texts.find? fun t => '?' ∈ t).isSome = true :=
      List.find?_isSome.2 (by simpa using hquery)
    obtain ⟨t, hfind⟩ := Option.isSome_iff_exists.1 hsome
    obtain ⟨ht, a, b, rfl, ha⟩ := List.find?_eq_some_iff_append.1 hfind
    obtain ⟨u, v, rfl, hu⟩ := List.eq_append_cons_of_mem (of_decide_eq_true ht)
    obtain ⟨hparts, hrest⟩ := List.forall_mem_append.1 h
    obtain ⟨hpart, -⟩ := List.forall_mem_cons.1 hrest
    have hslash : '/' ∉ u := fun hmem => hpart.2 (List.mem_append_left _ hmem)
    have hbefore : '?' ∉ a.flatMap ('/' :: ·) ++ '/' :: u := by
      intro hmem
      rcases List.mem_append.1 hmem with hmem | hmem
      · obtain ⟨part, hpart, hmem⟩ := List.mem_flatMap.1 hmem
        exact absurd (ha part hpart) (by simpa using hmem)
      · exact hu (by simpa using hmem)
    have hwhole : ofComponents (a ++ (u ++ '?' :: v) :: b) =
        (a.flatMap ('/' :: ·) ++ '/' :: u) ++ '?' :: (v ++ b.flatMap ('/' :: ·)) := by
      rw [ofComponents_eq_flatMap (by simp)]
      simp
    rw [hwhole, beforeQuery_append hbefore, components_append_slash, components_flatMap hparts,
      List.map_append]
    intro heq
    have hlast := (List.append_inj heq (List.length_map _)).2
    by_cases hnil : u = []
    · subst hnil
      cases hlast
    · rw [components_of_part hnil hslash] at hlast
      exact mark_decode_ne u v (List.cons.inj hlast).1

end Path

/-! ## Slots without captures -/

/-- Slots that capture nothing match their own text. -/
theorem Slot.lang_of_captures_nil {L : Text → Bool → Regex.Lang} {n : Nat} {slots : List Slot}
    {l t r : Text} {g : Regex.Groups} (h : captures slots = []) (σ : Text → Text) :
    lang L n slots l t r g ↔ t = slots.flatMap (spell σ) ∧ g = [] := by
  -- on the slots, which are texts alone
  induction slots generalizing l t g with
  | nil => exact Iff.rfl
  | cons s slots ih =>
    cases s with
    | capture name glob => cases h
    | text u =>
      rw [lang, List.flatMap_cons, spell]
      constructor
      · rintro ⟨t₁, t₂, g₁, g₂, rfl, rfl, h₁, h₂⟩
        obtain ⟨rfl, rfl⟩ := (chain_literal u).1 h₁
        obtain ⟨rfl, rfl⟩ := (ih h).1 h₂
        exact ⟨rfl, rfl⟩
      · rintro ⟨rfl, rfl⟩
        exact ⟨u, _, [], [], rfl, rfl, (chain_literal u).2 ⟨rfl, rfl⟩, (ih h).2 ⟨rfl, rfl⟩⟩

/-! ## Reading a pattern -/

/-- A component without colons and stars is text. -/
theorem Component.read_of_plain {s : Text} (last : Bool) (hs : s ≠ []) (hcolon : ':' ∉ s)
    (hstar : '*' ∉ s) : Component.read last s = .ok ⟨.static s, false⟩ := by
  have hformat : stripFormat s = (s, false) := by
    rw [stripFormat]
    split
    · next rest hrest =>
      obtain ⟨t, ht, -⟩ := Option.map_eq_some_iff.1 hrest
      have hsuffix := Text.afterPrefix?_eq_some_iff.1 ht
      refine absurd (List.mem_reverse.1 ?_) hcolon
      rw [hsuffix]
      exact List.mem_append_left _ (by decide)
    · rfl
  have hclassify : classify s = .ok (.static s) := by
    have hmixed : classify.mixed s = .ok (.static s) := by
      rw [classify.mixed, if_neg hcolon, if_neg hstar]
    unfold classify
    split
    · simp at hstar
    · simp at hcolon
    · exact hmixed
  rw [read, hformat]
  simp only [Bool.false_and, Bool.false_eq_true, if_false, List.isEmpty_iff, if_neg hs]
  exact bind_eq_ok.2 ⟨_, hclassify, rfl⟩

namespace Template

variable {parts : List Text}

/-- Parts without colon and star are read as static ones. -/
theorem readComponents_of_plain (seen : List Text)
    (h : ∀ part ∈ parts, part ≠ [] ∧ ':' ∉ part ∧ '*' ∉ part) :
    readComponents seen parts = .ok (parts.map fun part => ⟨.static part, false⟩) := by
  induction parts generalizing seen with
  | nil => rfl
  | cons part parts ih =>
    obtain ⟨⟨hne, hcolon, hstar⟩, hparts⟩ := List.forall_mem_cons.1 h
    rw [readComponents]
    exact bind_eq_ok.2 ⟨_, Component.read_of_plain _ hne hcolon hstar,
      bind_eq_ok.2 ⟨_, ih _ hparts, rfl⟩⟩

/-- A pattern without captures and globs is its components, and all defaults remain. -/
theorem read_of_plain {pattern : Text} (defaults : Params) (required : List Text)
    (h : ∀ part ∈ Path.components pattern, ':' ∉ part ∧ '*' ∉ part) :
    read pattern defaults required =
      .ok ((Path.components pattern).map .static, defaults) := by
  -- a static component changes no default and begins no optional tail
  have harrange (parts : List Text) :
      (arrange required defaults (parts.map fun part => ⟨.static part, false⟩)).segments =
          parts.map .static ∧
        (arrange required defaults (parts.map fun part => ⟨.static part, false⟩)).defaults =
          defaults := by
    induction parts with
    | nil => exact ⟨rfl, rfl⟩
    | cons part parts ih => exact ⟨congrArg (Segment.static part :: ·) ih.1, ih.2⟩
  have hcomponents := readComponents_of_plain []
    fun part hpart => ⟨(Path.mem_components hpart).1, h part hpart⟩
  rw [read, components, hcomponents]
  show Except.ok (_, _) = _
  rw [(harrange _).1, (harrange _).2]

end Template

/-! ## Routes of plain text -/

namespace Declaration

/-- The components of the pattern. -/
def texts (d : Declaration) : List Text := Path.components d.fullPath

/-- A pattern without captures and globs, with a controller and without conditions. -/
structure IsStatic (d : Declaration) : Prop where
  plain : ∀ text ∈ d.texts, ':' ∉ text ∧ '*' ∉ text
  controller : (Value.paramOf? (d.defaults.get? controllerKey)).isSome = true
  requirements : d.requirements = .empty
  methods : d.methods = []
  host : d.host = none

end Declaration

namespace Route

/-- With a controller, controller and action are texts. -/
theorem exists_texts_normalizeDefaults {defaults : Params}
    (h : (Value.paramOf? (defaults.get? controllerKey)).isSome = true) :
    (∃ c, (normalizeDefaults defaults).get? controllerKey = some (.str c)) ∧
      ∃ a, (normalizeDefaults defaults).get? actionKey = some (.str a) := by
  rcases normalizeDefaults_cases defaults with ⟨hnone, -⟩ | ⟨hcontroller, haction, -⟩
  · rw [hnone] at h
    cases h
  · exact ⟨hcontroller, haction⟩

variable [Properties]

/-- A route whose components are texts, with a controller and without conditions. -/
structure IsStatic (r : Route) (texts : List Text) : Prop where
  guarded : r.Guarded
  segments : r.segments = texts.map .static
  components : ∀ t ∈ texts, t ≠ [] ∧ '/' ∉ t
  controller : ∃ c, r.defaults.get? controllerKey = some (.str c)
  action : ∃ a, r.defaults.get? actionKey = some (.str a)
  host : r.host = none
  condition : r.condition = .any

/-- A static declaration compiles to a static route. -/
theorem isStatic_of_compile {d : Declaration} {c : Requirement} {r : Route} (hd : d.IsStatic)
    (h : compile d c = .ok r) (hc : ∃ M names, c.Embeds M names) : r.IsStatic d.texts := by
  have hclosed : d.isClosed = true := by
    rw [Declaration.isClosed, hd.requirements]
    rfl
  obtain ⟨defaults, -, hread, hdrop, -⟩ := compile_eq_ok h
  rw [Template.read_of_plain _ _ hd.plain] at hread
  obtain ⟨hsegments, rfl⟩ := Prod.mk.inj (Except.ok.inj hread)
  have hdefaults (k : Text) : r.defaults.get? k = (normalizeDefaults d.defaults).get? k := by
    rw [dropGlobDefault_ok hdrop, if_neg]
    rw [← hsegments]
    simp
  obtain ⟨hcontroller, haction⟩ := exists_texts_normalizeDefaults hd.controller
  constructor
  case guarded => exact guarded_of_compile h hclosed hc
  case segments => exact hsegments.symm
  case components => exact fun t => Path.mem_components
  case controller => rwa [hdefaults]
  case action => rwa [hdefaults]
  case host => rw [host_of_compile h, hd.host]
  case condition =>
    have hcondition := condition_of_compile h
    rw [hd.methods] at hcondition
    exact (Except.ok.inj hcondition).symm

namespace IsStatic

variable {r : Route} {texts : List Text} {t : Table} (h : r.IsStatic texts)

include h

/-! ### The path -/

theorem splitFormat : splitFormat r.segments = (texts.map .static, none) := by
  rw [h.segments]
  generalize texts = parts
  induction parts with
  | nil => rfl
  | cons part parts ih =>
    rw [List.map_cons, Routing.splitFormat, ih]
    rintro _ ⟨⟩

theorem required : r.required = texts.map .static := by
  rw [Route.required, h.splitFormat, List.takeWhile_eq_self_iff]
  simp [Segment.isOptional]

theorem levels : r.levels = [] := by
  have hoptional : r.optional = [] := by
    rw [Route.optional, h.splitFormat, List.dropWhile_eq_nil_iff]
    simp [Segment.isOptional]
  rw [Route.levels, hoptional, Route.format?, h.splitFormat]
  rfl

theorem names : segmentNames r.segments = [] := by
  rw [h.segments, segmentNames, List.flatMap_map]
  simp [Segment.names]

/-- The path has all components, whatever texts are given to parameters. -/
theorem path (σ : Text → Text) (m : Nat) : Level.path σ (r.shown m) = Path.ofComponents texts := by
  rw [shown, h.levels, List.take_nil, List.append_nil, h.required, List.map_map]
  by_cases hnil : texts = []
  · subst hnil
    rfl
  · rw [Level.path, if_neg (by simpa using hnil), Path.ofComponents_eq_flatMap hnil,
      List.flatMap_map]
    apply List.flatMap_congr
    intro t _
    simp [Level.spell, Level.slots, Segment.slots, Slot.spell]

/-! ### Recognition -/

/-- The route matches its own path only. -/
theorem isSome_match {path : Text} :
    (r.match? path).isSome = true ↔ path = Path.ofComponents texts := by
  have hcompiled := h.guarded.toCompiled
  obtain ⟨L, N, hguards, -, -⟩ := h.guarded.exists_langs
  -- without captures the slots of the path match what they spell and nothing else
  have hlang (m : Nat) (g : Regex.Groups) :
      Slot.lang L 0 (r.slotsAt m) [] path [] g ↔ path = Path.ofComponents texts ∧ g = [] := by
    have hcaptures : Slot.captures (r.slotsAt m) = [] := by
      have hnames := names_eq hcompiled m
      rw [h.names, ← names_slotsAt hcompiled] at hnames
      exact List.map_eq_nil_iff.1 (List.append_eq_nil_iff.1 hnames.symm).1
    rw [Slot.lang_of_captures_nil hcaptures id, spell_slotsAt hcompiled, h.path]
  rw [match?, Option.isSome_map]
  constructor
  · intro hsome
    obtain ⟨bound, hb⟩ := Option.isSome_iff_exists.1 hsome
    obtain ⟨m, hm⟩ := lang_of_match hcompiled hguards hb
    exact ((hlang m bound).1 hm).1
  · intro hpath
    exact isSome_match_of_lang hcompiled hguards (Nat.zero_le _) ((hlang 0 []).2 ⟨hpath, rfl⟩)

/-- A request fits when its path is decoded to that of the route. -/
theorem fits_iff {request : Request} :
    request.Fits r ↔ request.decoded = Path.ofComponents texts := by
  have hadmits : r.admitsHost request.host = true := by
    unfold admitsHost
    rw [h.host]
  rw [Request.Fits, candidate?, if_pos hadmits, ← Option.isSome_iff_exists, ← h.isSome_match]
  cases hm : r.match? request.decoded with
  | none => rfl
  | some params =>
    obtain ⟨bound, -, rfl⟩ := Option.map_eq_some_iff.1 hm
    obtain ⟨c, hc⟩ := h.controller
    have hgroups : r.groups = [] := by rw [h.guarded.groups, h.names]
    rw [hgroups, overlayGroups, Option.isSome_some, Option.filter_some, if_pos]
    · rfl
    · rw [Params.given?, Dict.get?_filter, hc]
      rfl

/-- A table with one static route recognises the requests with its path. -/
theorem recognized_iff (ht : t.routes = [r]) {request : Request} :
    (∃ params, t.recognize request = .ok params) ↔
      request.decoded = Path.ofComponents texts := by
  have haccepts : r.accepts request.method = true := by
    rw [accepts, h.condition]
    cases request.method <;> rfl
  rw [Table.exists_recognize_eq_ok, ht]
  simp [haccepts, h.fits_iff]

/-! ### Links -/

/-- Every default of a static route is required. -/
theorem mem_requiredDefaults {k : Text} {v : Value} :
    (k, v) ∈ r.requiredDefaults.entries ↔ r.defaults.get? k = some v := by
  have hkeys : r.keys = [] := by rw [h.guarded.keys, h.names]
  rw [Dict.mem_entries_iff, h.guarded.requiredDefaults, hkeys, Dict.get?_filter]
  cases r.defaults.get? k <;> simp

/-- A static route has a default that is required, and so is tried in generation. -/
theorem isSignificant : r.isSignificant = true := by
  obtain ⟨c, hc⟩ := h.controller
  have hmem := h.mem_requiredDefaults.2 hc
  rw [Route.isSignificant, Dict.isEmpty]
  cases hentries : r.requiredDefaults.entries with
  | nil =>
    rw [hentries] at hmem
    cases hmem
  | cons => simp

/-- Asked for its own defaults, the route is asked for the path form of each one, unless the
controller has a leading slash, which is dropped. -/
theorem param?_merged
    (hslash : ∀ c, r.defaults.get? controllerKey = some (.str c) → c.head? ≠ some '/')
    {k : Text} {v : Value} (hv : r.defaults.get? k = some v) :
    Value.paramOf? (((Intent.normalize none ⟨r.defaults, .empty⟩).recalled.overlay
      (Intent.normalize none ⟨r.defaults, .empty⟩).options).get? k) = v.param? := by
  obtain ⟨c, hc⟩ := h.controller
  obtain ⟨a, ha⟩ := h.action
  -- a default that counts for nothing is asked for as it is, any other after normalising
  by_cases htruthy : v.isTruthy = true
  · rw [Intent.get?_merged hv htruthy, Value.paramOf?, Option.bind_some]
    by_cases hkc : k = controllerKey
    · subst hkc
      cases hc.symm.trans hv
      rw [Intent.asked_str (hslash c hc)]
    · by_cases hka : k = actionKey
      · rw [hka, Intent.asked_action, Value.param?_asText]
      · rw [Intent.asked_of_ne hkc hka]
  · -- controller and action are texts, so that this is another parameter
    have hkc : k ≠ controllerKey := by
      rintro rfl
      cases hc.symm.trans hv
      exact htruthy rfl
    have hka : k ≠ actionKey := by
      rintro rfl
      cases ha.symm.trans hv
      exact htruthy rfl
    rw [Dict.get?_overlay, Intent.get?_options_of_ne hkc hka, hv]
    rfl

/-- There is a link for the defaults of the route, when none of them is lost on the way. -/
theorem exists_generate (ht : t.routes = [r])
    (hreserved : ∀ k ∈ Reserved.keys, r.defaults.get? k = none)
    (hslash : ∀ c, r.defaults.get? controllerKey = some (.str c) → c.head? ≠ some '/') :
    ∃ link, t.generate r.defaults .empty = .ok link := by
  let x := Intent.normalize none ⟨r.defaults, .empty⟩
  have hsome : (r.link? x.options x.recalled).isSome = true := by
    rw [link?, Option.isSome_map, isSome_render?, h.required]
    refine ⟨?_, by simp [Rendering.segment?]⟩
    -- nothing has to be rendered, so only the defaults have to be met
    rw [meetsDefaults, List.all_eq_true]
    exact fun entry hentry =>
      decide_eq_true (h.param?_merged hslash (h.mem_requiredDefaults.1 hentry))
  obtain ⟨link, hlink⟩ := Option.isSome_iff_exists.1 hsome
  refine ⟨link, ?_⟩
  rw [Table.generate_eq_generateAny hreserved, Table.generateAny, ht]
  simp only [Table.firstLink?, h.isSignificant, if_true]
  rw [hlink]
  rfl

/-- Every link is the path of the route. -/
theorem path_of_generate (ht : t.routes = [r]) {options recalled : Params} {link : Link}
    (hlink : t.generate options recalled = .ok link) : link.path = Path.ofComponents texts := by
  obtain ⟨r', hr', upper, lower, hlink⟩ := Table.generate_eq_ok hlink
  rw [ht, List.mem_singleton] at hr'
  subst hr'
  obtain ⟨shown, used, hlinked⟩ := linked_of_link? hlink
  rw [hlinked.path, h.path]

end IsStatic

end Route

/-! ## Tables of one route -/

namespace Table

open Routing.Path (components beforeQuery restore mark decodeComponent ofComponents)

section

variable [Properties] {n : Namespaces} {d : Declaration} {t : Table}

/-- A table drawn from a static declaration has its route alone. -/
theorem isStatic_of_draw (hdraw : (ofNamespaces n).draw [d] = .ok t) (hd : d.IsStatic) :
    ∃ r, t.routes = [r] ∧ r.IsStatic d.texts := by
  have hroutes := draw_eq_ok hdraw
  cases hr : t.routes with
  | nil =>
    rw [hr] at hroutes
    cases hroutes
  | cons r routes =>
    rw [hr] at hroutes
    obtain ⟨⟨c, hc, hcompile⟩, hnil⟩ := List.forall₂_cons.1 hroutes
    cases hnil
    exact ⟨r, rfl, Route.isStatic_of_compile hd hcompile (Namespaces.embeds hc)⟩

/-- A pattern of plain text with a controller and without conditions recognises the paths whose
components are decoded to its texts, once the placeholders in these have been replaced, and none at
all when a percent sign in it begins no placeholder. Without percent signs the components are thus
decoded to the texts as they are. Every link has the path that is written like the pattern; it is
recognised when the pattern has no question mark and each of its texts is decoded to itself. There
is such a link for the defaults, when none of them has the name of an option that is no parameter
and the controller has no leading slash. -/
theorem recognize_static (hdraw : (ofNamespaces n).draw [d] = .ok t) (hd : d.IsStatic) :
    (∀ request : Request, (∃ params, t.recognize request = .ok params) ↔
      (components (beforeQuery request.path)).map Percent.decode = d.texts.map restore ∧
        ∀ text ∈ d.texts, mark (restore text) = text) ∧
    ((∀ text ∈ d.texts, '%' ∉ text) →
      ∀ request : Request, (∃ params, t.recognize request = .ok params) ↔
        (components (beforeQuery request.path)).map Percent.decode = d.texts) ∧
    (∀ options recalled link, t.generate options recalled = .ok link →
      link.path = ofComponents d.texts ∧
        ∀ method host, (∃ params, t.recognize ⟨link.path, method, host⟩ = .ok params) ↔
          ∀ text ∈ d.texts, '?' ∉ text ∧ decodeComponent text = text) ∧
    ∃ r, t.routes = [r] ∧
      ((∀ k ∈ Reserved.keys, r.defaults.get? k = none) →
        (∀ c, r.defaults.get? controllerKey = some (.str c) → c.head? ≠ some '/') →
          ∃ link, t.generate r.defaults .empty = .ok link) := by
  obtain ⟨r, ht, hr⟩ := isStatic_of_draw hdraw hd
  have hrecognize (request : Request) : (∃ params, t.recognize request = .ok params) ↔
      (components (beforeQuery request.path)).map Percent.decode = d.texts.map restore ∧
        ∀ text ∈ d.texts, mark (restore text) = text :=
    (hr.recognized_iff ht).trans (Path.decode_normalize_eq_iff hr.components)
  refine ⟨hrecognize, fun hpercent request => ?_, fun options recalled link hlink => ?_, r, ht,
    hr.exists_generate ht⟩
  · have hrestore : d.texts.map restore = d.texts :=
      Path.map_eq_self_iff.2 fun text htext => Path.restore_of_plain (hpercent text htext)
    rw [hrecognize, hrestore, and_iff_left]
    intro text htext
    rw [Path.restore_of_plain (hpercent text htext), Path.mark_of_plain]
    exact fun c hc => ⟨fun h => hpercent text htext (h ▸ hc),
      fun h => (hr.components text htext).2 (h ▸ hc)⟩
  · have hpath := hr.path_of_generate ht hlink
    refine ⟨hpath, fun method host => ?_⟩
    rw [hpath, hr.recognized_iff ht]
    exact Path.decode_normalize_ofComponents hr.components

end

/-- A sale of half the price. -/
def saleDeclaration : Declaration :=
  { Declaration.blank with
    path := "sale/50%25".toList
    defaults := .ofList [(controllerKey, .str "offers".toList)] }

theorem recognize_static_sale :
    ∃ t, (ofNamespaces .empty).draw [saleDeclaration] = .ok t ∧
      (∃ params, t.recognize ⟨"/%73ale//50%25?page=2".toList, none, none⟩ = .ok params) ∧
      (¬ ∃ params, t.recognize ⟨"/sale/50%2525".toList, none, none⟩ = .ok params) ∧
      ∃ link, t.generate (.ofList [(controllerKey, .str "offers".toList)]) .empty = .ok link ∧
        link.path = "/sale/50%25".toList ∧
        ∃ params, t.recognize ⟨link.path, none, none⟩ = .ok params := by
  let t : Table := ((ofNamespaces .empty).draw [saleDeclaration]).toOption.getD empty
  let link : Link := ⟨"/sale/50%25".toList, .empty⟩
  have hdraw : (ofNamespaces .empty).draw [saleDeclaration] = .ok t := by decide +kernel
  have hstatic : saleDeclaration.IsStatic :=
    ⟨by decide +kernel, by decide +kernel, rfl, rfl, rfl⟩
  have hlink : t.generate (.ofList [(controllerKey, .str "offers".toList)]) .empty = .ok link := by
    decide +kernel
  obtain ⟨hrecognize, -, hgenerate, -⟩ := recognize_static hdraw hstatic
  refine ⟨t, hdraw, (hrecognize _).2 (by decide +kernel), mt (hrecognize _).1 (by decide +kernel),
    link, hlink, rfl, ?_⟩
  exact ((hgenerate _ _ _ hlink).2 none none).2 (by decide +kernel)

end Table

end Routing

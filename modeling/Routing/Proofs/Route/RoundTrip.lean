import Routing.Proofs.Path
import Routing.Proofs.Route.Rendering
import Routing.Proofs.Route.Unique

/-!
# From a path back to the parameters

A rendered path is escaped part by part; once it is made canonical and decoded it spells the same
levels, with placeholders in the texts. The route matches it, reads it in this one way only, and
binds every parameter to the text that was rendered.

* `Route.Written` — the parts of a text that can stand for a parameter
* `Route.match_of_written` — a path of written texts is read back
* `Route.match_of_render?` — so is every path that is rendered
-/

namespace Routing

open Routing.Path

/-! ## Parts of a text -/

/-- The escaped text of some parts. -/
def Path.escapedText (parts : List Text) : Text := ['/'].intercalate (parts.map escape)

/-- The decoded text of some parts. -/
def Path.markedText (parts : List Text) : Text := ['/'].intercalate (parts.map mark)

/-- The decoded text of some parts is split into them again, since no decoded part holds a slash. -/
theorem Path.splitOn_markedText {parts : List Text} (h : parts ≠ []) :
    (markedText parts).splitOn '/' = parts.map mark := by
  rw [markedText, List.splitOn_intercalate]
  · intro t ht
    obtain ⟨s, -, rfl⟩ := List.mem_map.1 ht
    exact slash_not_mem_mark s
  · simpa using h

namespace Route

variable [Properties] {r : Route} {m : Nat} {name : Text} {glob : Bool}

/-- The parts of a text that can stand for a parameter: one, but for a glob. -/
structure Written (name : Text) (glob : Bool) (parts : List Text) : Prop where
  ne_nil : parts ≠ []
  parts_ne_nil : ∀ part ∈ parts, part ≠ []
  single : glob = false → ∃ part, parts = [part]
  fits : Slot.Fits name glob (markedText parts)

/-! ## Fixed texts and globs -/

/-- The pattern has neither a percent sign nor a question mark. -/
def Unescaped (r : Route) : Prop := '%' ∉ r.pattern ∧ '?' ∉ r.pattern

/-- The fixed texts of a component need no escaping. -/
theorem plain_of_mem_slots (h : r.Settled) (hplain : r.Unescaped) {s : Segment}
    (hs : s ∈ r.required ++ r.optional) {t : Text} (ht : Slot.text t ∈ s.slots) :
    t ≠ [] ∧ ∀ c ∈ t, c ≠ '%' ∧ c ≠ '?' ∧ c ≠ '/' := by
  have ht := mem_literals_of_mem_slots ht
  rcases List.mem_append.1 hs with hs | hs
  · obtain ⟨hne, part, hpart, hsub⟩ := h.shape.literals s hs t ht
    refine ⟨hne, fun c hc => ⟨?_, ?_, ?_⟩⟩
    · rintro rfl
      exact hplain.1 (mem_of_mem_components hpart (hsub _ hc))
    · rintro rfl
      exact hplain.2 (mem_of_mem_components hpart (hsub _ hc))
    · rintro rfl
      exact (mem_components hpart).2 (hsub _ hc)
  · -- a component that may be missing is a capture
    obtain ⟨name, rfl⟩ := h.shape.optional s hs
    cases ht

/-- A component spells something when its captures do. -/
theorem spell_slots_ne_nil (h : r.Settled) (hplain : r.Unescaped) {s : Segment}
    (hs : s ∈ r.required ++ r.optional) {σ : Text → Text}
    (hσ : ∀ name glob, Slot.capture name glob ∈ s.slots → σ name ≠ []) :
    s.slots.flatMap (Slot.spell σ) ≠ [] := by
  intro hnil
  rw [List.flatMap_eq_nil_iff] at hnil
  -- a static part is not empty, and a component with several pieces has a capture among them
  cases s with
  | static t =>
    exact (plain_of_mem_slots h hplain hs List.mem_cons_self).1 (hnil _ List.mem_cons_self)
  | capture | glob | format => exact hσ _ _ List.mem_cons_self (hnil _ List.mem_cons_self)
  | compound pieces =>
    have hreq : .compound pieces ∈ r.required := by
      rcases List.mem_append.1 hs with hs | hs
      · exact hs
      · obtain ⟨name, hname⟩ := h.shape.optional _ hs
        cases hname
    obtain ⟨name, hname⟩ := h.shape.captures pieces hreq
    have hmem : Slot.capture name false ∈ (Segment.compound pieces).slots :=
      List.mem_map.2 ⟨_, hname, rfl⟩
    exact hσ name false hmem (hnil _ hmem)

/-! ## Written paths -/

section Written

variable {parts : Text → List Text}

def escapedTexts (parts : Text → List Text) (name : Text) : Text := escapedText (parts name)

def markedTexts (parts : Text → List Text) (name : Text) : Text := markedText (parts name)

omit [Properties] in
/-- Slots of one component, with one part for every capture. -/
theorem encoded_slots {slots : List Slot}
    (htext : ∀ t, .text t ∈ slots → ∀ c ∈ t, c ≠ '%' ∧ c ≠ '?' ∧ c ≠ '/')
    (hcapture : ∀ name glob, .capture name glob ∈ slots → ∃ part, parts name = [part]) :
    '/' ∉ slots.flatMap (Slot.spell (escapedTexts parts)) ∧
      '?' ∉ slots.flatMap (Slot.spell (escapedTexts parts)) ∧
      ∃ t, Encodes (slots.flatMap (Slot.spell (escapedTexts parts))) t ∧
        mark t = slots.flatMap (Slot.spell (markedTexts parts)) := by
  -- on the slots, whose encodings are put together
  induction slots with
  | nil => exact ⟨by simp, by simp, [], .nil, rfl⟩
  | cons s slots ih =>
    obtain ⟨hslash, hquery, t, ht, hmark⟩ := ih
      (fun u hu => htext u (List.mem_cons_of_mem s hu))
      (fun name glob hc => hcapture name glob (List.mem_cons_of_mem s hc))
    rw [List.flatMap_cons, List.flatMap_cons, List.mem_append, List.mem_append, not_or, not_or]
    cases s with
    | text u =>
      have hu := htext u List.mem_cons_self
      refine ⟨⟨fun hc => (hu _ hc).2.2 rfl, hslash⟩, ⟨fun hc => (hu _ hc).2.1 rfl, hquery⟩,
        u ++ t, (encodes_self fun hc => (hu _ hc).1 rfl).append ht, ?_⟩
      rw [mark_append, hmark, mark_of_plain fun c hc => ⟨(hu c hc).1, (hu c hc).2.2⟩]
      rfl
    | capture name glob =>
      obtain ⟨part, hpart⟩ := hcapture name glob List.mem_cons_self
      have hescaped : escapedTexts parts name = escape part := by
        rw [escapedTexts, hpart]
        exact List.intercalate_singleton
      have hmarked : markedTexts parts name = mark part := by
        rw [markedTexts, hpart]
        exact List.intercalate_singleton
      rw [Slot.spell, Slot.spell, hescaped, hmarked]
      exact ⟨⟨slash_not_mem_escape part, hslash⟩, ⟨query_not_mem_escape part, hquery⟩,
        part ++ t, (encodes_escape part).append ht, by rw [mark_append, hmark]⟩

omit [Properties] in
/-- The parts of a glob, each one a component. -/
theorem rooted_parts {texts : List Text} (hne : texts ≠ []) (h : ∀ t ∈ texts, t ≠ []) :
    Rooted ('/' :: escapedText texts) ('/' :: markedText texts) := by
  have hall (f : Text → Text) : '/' :: ['/'].intercalate (texts.map f) =
      texts.flatMap fun t => '/' :: f t := by
    have hne' : texts.map f ≠ [] := by simpa using hne
    have := ofComponents_eq_flatMap hne'
    rw [ofComponents, List.flatMap_map] at this
    exact this
  refine ⟨texts.map fun t => (escape t, t), ?_, ?_, ?_⟩
  · rw [escapedText, hall, List.flatMap_map]
  · rw [markedText, hall, List.flatMap_map]
  · intro x hx
    obtain ⟨t, ht, rfl⟩ := List.mem_map.1 hx
    exact ⟨escape_ne_nil (h t ht), slash_not_mem_escape t, query_not_mem_escape t, encodes_escape t⟩

/-- The texts are written for the captures of a level. -/
def WrittenAt (parts : Text → List Text) (l : Level) : Prop :=
  ∀ name glob, Slot.capture name glob ∈ l.slots → Written name glob (parts name)

omit [Properties] in
theorem escapedTexts_ne_nil (hw : Written name glob (parts name)) :
    escapedTexts parts name ≠ [] := by
  obtain ⟨part, hpart⟩ := List.exists_mem_of_ne_nil _ hw.ne_nil
  obtain ⟨c, hc⟩ := List.exists_mem_of_ne_nil _ (escape_ne_nil (hw.parts_ne_nil part hpart))
  exact List.ne_nil_of_mem (mem_intercalate_of_mem (List.mem_map_of_mem hpart) hc)

/-- A component of a written path. A glob spells several, and any other component spells one. -/
theorem rooted_component (h : r.Settled) (hplain : r.Unescaped) {s : Segment}
    (hs : s ∈ r.required ++ r.optional) (hw : WrittenAt parts (.component s)) :
    Rooted (Level.spell (escapedTexts parts) (.component s))
      (Level.spell (markedTexts parts) (.component s)) := by
  have hw : ∀ name glob, .capture name glob ∈ s.slots → Written name glob (parts name) := by
    intro name glob hc
    exact hw name glob (List.mem_cons_of_mem _ hc)
  by_cases hglob : ∃ name, s = .glob name
  · obtain ⟨name, rfl⟩ := hglob
    have hwritten := hw name true List.mem_cons_self
    have hspell (σ : Text → Text) : Level.spell σ (.component (.glob name)) = '/' :: σ name :=
      congrArg ('/' :: ·) (List.append_nil (σ name))
    rw [hspell, hspell]
    exact rooted_parts hwritten.ne_nil hwritten.parts_ne_nil
  · have hsingle (name : Text) (glob : Bool) (hc : .capture name glob ∈ s.slots) :
        ∃ part, parts name = [part] := by
      cases glob with
      | true => exact absurd ⟨name, Segment.eq_glob_of_mem_slots hc⟩ hglob
      | false => exact (hw name false hc).single rfl
    have hne : s.slots.flatMap (Slot.spell (escapedTexts parts)) ≠ [] := by
      apply spell_slots_ne_nil h hplain hs
      intro name glob hc
      exact escapedTexts_ne_nil (hw name glob hc)
    obtain ⟨hslash, hquery, t, ht, hmark⟩ :=
      encoded_slots (fun t ht => (plain_of_mem_slots h hplain hs ht).2) hsingle
    have := rooted_part hne hslash hquery ht
    rw [hmark] at this
    exact this

/-- The components of a written path. -/
theorem rooted_components (h : r.Settled) (hplain : r.Unescaped) {segments : List Segment}
    (hsub : ∀ s ∈ segments, s ∈ r.required ++ r.optional)
    (hw : ∀ l ∈ segments.map Level.component, WrittenAt parts l) :
    Rooted ((segments.map Level.component).flatMap (Level.spell (escapedTexts parts)))
      ((segments.map Level.component).flatMap (Level.spell (markedTexts parts))) := by
  induction segments with
  | nil => exact .nil
  | cons s segments ih =>
    obtain ⟨hs, hsub⟩ := List.forall_mem_cons.1 hsub
    obtain ⟨hc, hw⟩ := List.forall_mem_cons.1 hw
    exact (rooted_component h hplain hs hc).append (ih hsub hw)

omit [Properties] in
/-- A format goes on with the last component of a written path. -/
theorem rooted_format {w w' : Text} (h : Rooted w w') (hne : w ≠ [])
    (hw : WrittenAt parts (.format name)) :
    Rooted (w ++ Level.spell (escapedTexts parts) (.format name))
      (w' ++ Level.spell (markedTexts parts) (.format name)) := by
  obtain ⟨part, hpart⟩ := (hw name false (by simp [Level.slots])).single rfl
  have hspell (σ : Text → Text) : Level.spell σ (.format name) = '.' :: σ name :=
    congrArg ('.' :: ·) (List.append_nil (σ name))
  have hslash : '/' ∉ '.' :: escape part := by
    rw [List.mem_cons, not_or]
    exact ⟨by decide, slash_not_mem_escape part⟩
  have hquery : '?' ∉ '.' :: escape part := by
    rw [List.mem_cons, not_or]
    exact ⟨by decide, query_not_mem_escape part⟩
  have hencodes : Encodes ('.' :: escape part) ('.' :: part) :=
    (encodes_self (t := ['.']) (by decide)).append (encodes_escape part)
  have := h.extend hne hslash hquery hencodes
  rw [hspell, hspell, escapedTexts, markedTexts, hpart, escapedText, markedText,
    List.map_singleton, List.map_singleton, List.intercalate_singleton,
    List.intercalate_singleton]
  exact this

/-- The levels of a written path. -/
theorem rooted_shown (h : r.Settled) (hplain : r.Unescaped)
    (hw : ∀ l ∈ r.shown m, WrittenAt parts l) :
    Rooted ((r.shown m).flatMap (Level.spell (escapedTexts parts)))
      ((r.shown m).flatMap (Level.spell (markedTexts parts))) := by
  rw [shown_eq] at hw ⊢
  obtain ⟨hcomponents, hformats⟩ := List.forall_mem_append.1 hw
  rw [List.flatMap_append, List.flatMap_append]
  have hsub : ∀ s ∈ r.required ++ r.optional.take m, s ∈ r.required ++ r.optional := by
    intro s hs
    rcases List.mem_append.1 hs with hs | hs
    · exact List.mem_append_left _ hs
    · exact List.mem_append_right _ (List.mem_of_mem_take hs)
  have hrooted := rooted_components h hplain hsub hcomponents
  -- the format is shown only when every component is
  by_cases hlen : r.optional.length < m
  · cases hformat : r.format? with
    | none => simpa [hformat] using hrooted
    | some name =>
      have htake : [name].take (m - r.optional.length) = [name] :=
        List.take_of_length_le (by rw [List.length_singleton]; omega)
      rw [hformat, Option.toList_some, htake, List.map_singleton] at hformats
      rw [Option.toList_some, htake, List.map_singleton, List.flatMap_singleton,
        List.flatMap_singleton]
      refine rooted_format hrooted ?_ (List.forall_mem_singleton.1 hformats)
      have hne := h.format (by rw [hformat]; exact Option.some_ne_none name)
      rw [List.take_of_length_le (Nat.le_of_lt hlen)]
      intro hnil
      rw [List.flatMap_eq_nil_iff] at hnil
      obtain ⟨s, hs⟩ := List.exists_mem_of_ne_nil _ hne
      exact spell_ne_nil _ _ (hnil _ (List.mem_map_of_mem hs))
  · have hzero : m - r.optional.length = 0 := by omega
    simpa [hzero] using hrooted

/-- What a written path is decoded to. -/
theorem decode_normalize_path (h : r.Settled) (hplain : r.Unescaped)
    (hw : ∀ l ∈ r.shown m, WrittenAt parts l) :
    decode (normalize (Level.path (escapedTexts parts) (r.shown m))) =
      Level.path (markedTexts parts) (r.shown m) := by
  rw [Level.path, Level.path]
  -- without a level the path is the root, in either form
  by_cases hnil : r.shown m = []
  · rw [hnil]
    rfl
  · have hp : (r.shown m).flatMap (Level.spell (escapedTexts parts)) ≠ [] := by
      intro hp
      rw [List.flatMap_eq_nil_iff] at hp
      obtain ⟨l, hl⟩ := List.exists_mem_of_ne_nil _ hnil
      exact spell_ne_nil _ l (hp l hl)
    rw [if_neg (by simpa using hnil), if_neg (by simpa using hnil),
      decode_normalize_of_rooted (rooted_shown h hplain hw), if_neg hp]

/-- The value of a parameter with a text of some parts. -/
def valueOf (r : Route) (name : Text) (parts : List Text) : Value :=
  if r.isGlob name then .list (parts.map .str) else .str (['/'].intercalate parts)

/-- A parameter reads the value of the parts that were written for it. -/
theorem capturedValue_markedText (hw : Written name (r.isGlob name) (parts name)) :
    r.capturedValue name (markedText (parts name)) = r.valueOf name (parts name) := by
  rw [capturedValue, valueOf]
  split
  · rw [splitOn_markedText hw.ne_nil, List.map_map]
    congr 1
    exact List.map_congr_left fun t _ => congrArg Value.str (restore_mark t)
  · next hglob =>
    obtain ⟨part, hpart⟩ := hw.single (by simpa using hglob)
    rw [hpart, markedText, List.map_singleton, List.intercalate_singleton,
      List.intercalate_singleton, restore_mark]

/-- A written path is read back: what was written is bound, and all else has its default. -/
theorem match_of_written (h : r.Settled) (hplain : r.Unescaped) (honce : r.CapturesOnce)
    (hm : m ≤ r.levels.length) (hw : ∀ l ∈ r.shown m, WrittenAt parts l) :
    ∃ params,
      r.match? (decode (normalize (Level.path (escapedTexts parts) (r.shown m)))) = some params ∧
      ∀ k, params.get? k =
        if k ∈ (r.shown m).flatMap Level.names then some (r.valueOf k (parts k))
        else (r.defaults.get? k).filter fun v => !v.isNil := by
  have hdescribes : r.Describes m (markedTexts parts)
      (Level.path (markedTexts parts) (r.shown m)) :=
    ⟨hm, fun l hl name glob hc => (hw l hl name glob hc).fits, rfl⟩
  rw [decode_normalize_path h hplain hw]
  obtain ⟨params, hparams⟩ :=
    Option.isSome_iff_exists.1 ((isSome_match_iff h).2 ⟨m, _, hdescribes⟩)
  refine ⟨params, hparams, fun k => ?_⟩
  obtain ⟨m', σ, hd, -, hget⟩ := get?_of_match h hparams
  -- the route may describe the path in one way only, so this is what matching found
  obtain ⟨rfl, hall⟩ := describes_unique h honce hdescribes hd
  rw [hget]
  split
  · next hk =>
    obtain ⟨l, hl, glob, hc⟩ := Level.mem_flatMap_names.1 hk
    rw [← hall k hk, markedTexts, capturedValue_markedText]
    rw [isGlob_eq h.toCompiled hl hc]
    exact hw l hl k glob hc
  · rfl

end Written

end Route

/-! ## Rendered paths -/

namespace Value

/-- The parts of a value in a path. -/
def parts : Value → List Text
  | .list items => items.filterMap param?
  | v => (v.param?.getD []).splitOn '/'

/-- The parts of a value, joined by slashes, are its path form. -/
theorem intercalate_parts {v : Value} {raw : Text} (h : v.param? = some raw) :
    ['/'].intercalate v.parts = raw := by
  cases v with
  | list items =>
    rw [param?, params_eq_filterMap] at h
    exact Option.some.inj h
  | nil | map => cases h
  | bool | int | str | symbol =>
    cases h
    exact List.intercalate_splitOn '/'

/-- A text without slashes has one part. -/
theorem parts_eq_singleton {v : Value} {raw : Text} (h : v.param? = some raw) (hne : raw ≠ [])
    (hslash : '/' ∉ raw) : v.parts = [raw] := by
  have hraw := intercalate_parts h
  match hparts : v.parts with
  | [] =>
    rw [hparts] at hraw
    exact absurd hraw.symm hne
  | [part] =>
    rw [hparts, List.intercalate_singleton] at hraw
    rw [hraw]
  | part :: next :: rest =>
    rw [hparts, List.intercalate_cons_cons] at hraw
    rw [← hraw] at hslash
    simp at hslash

end Value

namespace Rendering

variable [Properties] {x : Rendering} {name raw t : Text} {glob : Bool}

/-- The parts of a parameter in a path. -/
def parts (x : Rendering) (name : Text) : List Text :=
  ((x.value? name).map Value.parts).getD []

omit [Properties] in
/-- Apart from the controller, the parts of a value are escaped one by one. -/
theorem escaped_of_ne {v : Value} (hname : name ≠ controllerKey) (h : v.param? = some raw) :
    escaped name v raw = escapedText v.parts := by
  cases v with
  | list items => exact if_neg hname
  | nil | map => cases h
  | bool | int | str | symbol =>
    cases h
    exact if_neg hname

/-- What a requirement or the common rule admits. -/
theorem admits_iff (h : x.route.Settled) : x.admits name raw glob = true ↔
    if name = controllerKey then Slot.Fits controllerKey glob raw
    else raw ≠ [] ∧ (glob = false → ∀ c ∈ raw, isInner c = true) := by
  rw [admits]
  by_cases hname : name = controllerKey
  · subst hname
    obtain ⟨c, hc⟩ := Option.isSome_iff_exists.1 h.controller
    rw [hc, if_pos rfl]
    exact (h.accepts _ c hc).2 glob raw
  · rw [if_neg hname]
    -- a bare route has no requirement but the one on controllers
    cases hc : x.route.requirements.get? name with
    | some c => exact absurd (h.accepts _ c hc).1 hname
    | none =>
      cases glob with
      | true => simp
      | false => simp [isInner]

omit [Properties] in
/-- The characters of a name stand in a path as they are. -/
theorem plain_of_isNameChar {c : Char} (h : isNameChar c = true) :
    isPlain c = true ∧ c ≠ '%' ∧ c ≠ '/' := by
  have hlt : c.toNat < 128 := by
    rw [isNameChar_iff] at h
    simp only [Char.le_def, UInt32.le_iff_toNat_le] at h
    have hZ : 'Z'.val.toNat = 90 := rfl
    have hz : 'z'.val.toNat = 122 := rfl
    have h9 : '9'.val.toNat = 57 := rfl
    show c.val.toNat < 128
    rcases h with rfl | h | h | h
    · decide
    all_goals omega
  exact Utf8.forall_ascii
    (P := fun c => isNameChar c = true → isPlain c = true ∧ c ≠ '%' ∧ c ≠ '/') (by decide) hlt h

omit [Properties] in
/-- A controller that fits needs no escaping. -/
theorem plain_of_fits (h : Slot.Fits controllerKey glob raw) :
    ∀ c ∈ raw, isPlain c = true ∧ c ≠ '%' ∧ c ≠ '/' := by
  intro c hc
  have := h.2 c hc
  rw [Slot.allows, if_pos rfl] at this
  exact plain_of_isNameChar this

omit [Properties] in
/-- The controller has one part, which needs no escaping. -/
theorem written_of_controller {v : Value} (hraw : v.param? = some raw)
    (hfits : Slot.Fits controllerKey glob raw) :
    Route.Written controllerKey glob v.parts ∧
      escaped controllerKey v raw = escapedText v.parts := by
  have hplain := plain_of_fits hfits
  have hone (f : Text → Text) : ['/'].intercalate ([raw].map f) = f raw :=
    List.intercalate_singleton
  rw [Value.parts_eq_singleton hraw hfits.1 fun hs => (hplain _ hs).2.2 rfl]
  constructor
  · refine ⟨by simp, by simpa using hfits.1, fun _ => ⟨raw, rfl⟩, ?_⟩
    rw [markedText, hone, mark_of_plain fun c hc => (hplain c hc).2]
    exact hfits
  · rw [escapedText, hone, escape_of_plain fun c hc => (hplain c hc).1]
    exact if_pos rfl

omit [Properties] in
/-- A capture other than the controller is one part without slashes and dots. -/
theorem written_of_inner {v : Value} (hname : name ≠ controllerKey) (hraw : v.param? = some raw)
    (hne : raw ≠ []) (hinner : ∀ c ∈ raw, isInner c = true) : Route.Written name false v.parts := by
  have hslash : '/' ∉ raw := fun hs => absurd (hinner _ hs) (by decide)
  rw [Value.parts_eq_singleton hraw hne hslash]
  refine ⟨by simp, by simpa using hne, fun _ => ⟨raw, rfl⟩, ?_⟩
  rw [markedText, List.map_singleton, List.intercalate_singleton]
  refine ⟨mark_ne_nil hne, ?_⟩
  intro c hc
  rw [Slot.allows, if_neg hname, if_neg Bool.false_ne_true]
  rcases mem_mark hc with ⟨hc, -⟩ | hc
  · exact hinner c hc
  · -- neither of the placeholders has a slash or a dot in it
    have hall : "%25F".toList.all isInner = true := by decide
    exact List.all_eq_true.1 hall c hc

omit [Properties] in
/-- A glob other than the controller has any parts without line feeds. -/
theorem written_of_glob {v : Value} (hname : name ≠ controllerKey) (hraw : v.param? = some raw)
    (hne : raw ≠ []) (hparts : ∀ part ∈ v.parts, part ≠ [] ∧ '\n' ∉ part) :
    Route.Written name true v.parts := by
  have hsome : v.parts ≠ [] := by
    intro hnil
    have := Value.intercalate_parts hraw
    rw [hnil] at this
    exact hne this.symm
  refine ⟨hsome, fun part hpart => (hparts part hpart).1, by simp, ?_, ?_⟩
  · obtain ⟨part, hpart⟩ := List.exists_mem_of_ne_nil _ hsome
    obtain ⟨c, hc⟩ := List.exists_mem_of_ne_nil _ (mark_ne_nil (hparts part hpart).1)
    exact List.ne_nil_of_mem (mem_intercalate_of_mem (List.mem_map_of_mem hpart) hc)
  · intro c hc
    rw [Slot.allows, if_neg hname, if_pos rfl, decide_eq_true_iff]
    rintro rfl
    -- a line feed would have to be a slash, a character of a part or one of a placeholder
    rcases mem_of_mem_intercalate hc with hc | ⟨_, hpart, hc⟩
    · exact absurd hc (by decide)
    · obtain ⟨part, hmem, rfl⟩ := List.mem_map.1 hpart
      rcases mem_mark hc with ⟨hc, -⟩ | hc
      · exact (hparts part hmem).2 hc
      · exact absurd hc (by decide)

/-- A capture that is rendered is written, part by part. -/
theorem written_of_capture? (h : x.route.Settled) (hc : x.capture? name glob = some t)
    (hglob : glob = true → ∀ part ∈ x.parts name, part ≠ [] ∧ '\n' ∉ part) :
    Route.Written name glob (x.parts name) ∧ x.text name = escapedText (x.parts name) := by
  have htext := text_of_capture? hc
  obtain ⟨v, raw, hv, hraw, hadmits, hescaped⟩ := capture?_eq_some.1 hc
  have hparts : x.parts name = v.parts := by
    rw [parts, hv]
    rfl
  rw [admits_iff h] at hadmits
  rw [← htext, ← hescaped]
  rw [hparts] at hglob ⊢
  -- the controller is written as it is, any other parameter part by part
  by_cases hname : name = controllerKey
  · subst hname
    rw [if_pos rfl] at hadmits
    exact written_of_controller hraw hadmits
  · rw [if_neg hname] at hadmits
    obtain ⟨hne, hinner⟩ := hadmits
    refine ⟨?_, escaped_of_ne hname hraw⟩
    cases glob with
    | false => exact written_of_inner hname hraw hne (hinner rfl)
    | true => exact written_of_glob hname hraw hne (hglob rfl)

end Rendering

namespace Route

section

variable [Properties] {r : Route}

omit [Properties] in
/-- A path depends on the texts of the parameters that are shown alone. -/
theorem path_congr {σ σ' : Text → Text} {levels : List Level}
    (h : ∀ l ∈ levels, ∀ name glob, Slot.capture name glob ∈ l.slots → σ name = σ' name) :
    Level.path σ levels = Level.path σ' levels := by
  have hspell : levels.flatMap (Level.spell σ) = levels.flatMap (Level.spell σ') := by
    refine List.flatMap_congr fun l hl => List.flatMap_congr fun s hs => ?_
    cases s with
    | text t => rfl
    | capture name glob => exact h l hl name glob hs
  rw [Level.path, Level.path, hspell]

section Captures

variable {x : Rendering} {m : Nat} {k : Text}

theorem parts_of_texts {texts : List Text} (hv : x.value? k = some (.list (texts.map .str))) :
    x.parts k = texts := by
  rw [Rendering.parts, hv]
  show (texts.map Value.str).filterMap Value.param? = texts
  rw [List.filterMap_map]
  exact List.filterMap_some

/-- A parameter in a path has a value with a path form. -/
theorem value?_of_shown (hcaptures : ∀ l ∈ x.route.shown m, ∀ name glob,
      Slot.capture name glob ∈ l.slots → (x.capture? name glob).isSome = true)
    (hk : k ∈ (x.route.shown m).flatMap Level.names) :
    ∃ v raw, x.value? k = some v ∧ v.param? = some raw := by
  obtain ⟨l, hl, glob, hc⟩ := Level.mem_flatMap_names.1 hk
  obtain ⟨t, ht⟩ := Option.isSome_iff_exists.1 (hcaptures l hl k glob hc)
  obtain ⟨v, raw, hv, hraw, -⟩ := Rendering.capture?_eq_some.1 ht
  exact ⟨v, raw, hv, hraw⟩

/-- A path of rendered captures is read back. -/
theorem match_of_captures (h : x.route.Settled) (hplain : x.route.Unescaped)
    (honce : x.route.CapturesOnce) (hm : m ≤ x.route.levels.length)
    (hglob : ∀ name, .glob name ∈ x.route.segments → ∀ v, x.value? name = some v →
      ∃ texts : List Text, v = .list (texts.map .str) ∧ ∀ t ∈ texts, t ≠ [] ∧ '\n' ∉ t)
    (hcaptures : ∀ l ∈ x.route.shown m, ∀ name glob,
      Slot.capture name glob ∈ l.slots → (x.capture? name glob).isSome = true) :
    ∃ params,
      x.route.match? (decode (normalize (Level.path x.text (x.route.shown m)))) = some params ∧
      ∀ k, params.get? k =
        if k ∈ (x.route.shown m).flatMap Level.names then some (x.route.valueOf k (x.parts k))
        else (x.route.defaults.get? k).filter fun v => !v.isNil := by
  have hwritten : ∀ l ∈ x.route.shown m, ∀ name glob, Slot.capture name glob ∈ l.slots →
      Written name glob (x.parts name) ∧ x.text name = escapedText (x.parts name) := by
    intro l hl name glob hc
    obtain ⟨t, ht⟩ := Option.isSome_iff_exists.1 (hcaptures l hl name glob hc)
    apply Rendering.written_of_capture? h ht
    intro hg
    subst hg
    obtain ⟨v, raw, hv, -⟩ := Rendering.capture?_eq_some.1 ht
    have hmem : .glob name ∈ x.route.segments := by
      have := segmentOf_mem h.toCompiled hl
      rwa [Segment.eq_glob_of_mem_slots (mem_slots_segmentOf.1 hc)] at this
    obtain ⟨texts, rfl, htexts⟩ := hglob name hmem v hv
    rw [parts_of_texts hv]
    exact htexts
  -- rendering spells the escaped texts of the parts
  have hpath : Level.path x.text (x.route.shown m) =
      Level.path (escapedTexts x.parts) (x.route.shown m) :=
    path_congr fun l hl name glob hc => (hwritten l hl name glob hc).2
  rw [hpath]
  exact match_of_written h hplain honce hm fun l hl name glob hc => (hwritten l hl name glob hc).1

end Captures

/-- A rendered path is recognised, and gives back exactly what was rendered: the path form of every
parameter in the path, the same list for a glob, and the defaults of all others but nil. -/
theorem match_of_render? {d : Declaration} (hd : CompiledBare d r) (hplain : r.Unescaped)
    (honce : r.CapturesOnce) {options recalled pending : Params} {path : Text}
    (hglob : ∀ name, .glob name ∈ r.segments → ∀ v,
      Rendering.value? ⟨r, recalled.overlay options⟩ name = some v →
        ∃ texts : List Text, v = .list (texts.map .str) ∧ ∀ t ∈ texts, t ≠ [] ∧ '\n' ∉ t)
    (hr : r.render? options recalled = some (path, pending)) :
    ∃ m ≤ r.levels.length, ∃ params,
      path = Level.path (Rendering.text ⟨r, recalled.overlay options⟩) (r.shown m) ∧
      r.match? (decode (normalize path)) = some params ∧
      (∀ k ∈ (r.shown m).flatMap Level.names, r.isGlob k = false → ∃ raw,
        Value.paramOf? (Rendering.value? ⟨r, recalled.overlay options⟩ k) = some raw ∧
          params.get? k = some (.str raw)) ∧
      (∀ k ∈ (r.shown m).flatMap Level.names, r.isGlob k = true → ∃ texts : List Text,
        Rendering.value? ⟨r, recalled.overlay options⟩ k = some (.list (texts.map .str)) ∧
          params.get? k = some (.list (texts.map .str))) ∧
      ∀ k ∉ (r.shown m).flatMap Level.names,
        params.get? k = (r.defaults.get? k).filter fun v => !v.isNil := by
  have h := settled_of_compiledBare hd
  obtain ⟨m, used, hcut, rfl, -⟩ := render?_eq_some hr
  have hm := hcut.shown_le.trans hcut.used_le
  have hcaptures : ∀ l ∈ r.shown m, ∀ name glob, Slot.capture name glob ∈ l.slots →
      (Rendering.capture? ⟨r, recalled.overlay options⟩ name glob).isSome = true :=
    fun l hl => captures_of_render? hr hcut l (shown_subset hcut.shown_le hl)
  -- the rendering is a variable from here on, so that the facts about it need no unfolding
  generalize hx : (⟨r, recalled.overlay options⟩ : Rendering) = x at *
  obtain rfl : x.route = r := by rw [← hx]
  obtain ⟨params, hparams, hget⟩ := match_of_captures h hplain honce hm hglob hcaptures
  refine ⟨m, hm, params, rfl, hparams, ?_, ?_, fun k hk => ?_⟩
  · intro k hk hsingle
    obtain ⟨v, raw, hv, hraw⟩ := value?_of_shown hcaptures hk
    refine ⟨raw, by rw [hv]; exact hraw, ?_⟩
    have hparts : x.parts k = v.parts := by
      rw [Rendering.parts, hv]
      rfl
    rw [hget, if_pos hk, valueOf, hsingle, if_neg Bool.false_ne_true, hparts,
      Value.intercalate_parts hraw]
  · intro k hk hg
    obtain ⟨v, raw, hv, -⟩ := value?_of_shown hcaptures hk
    have hlast : x.route.segments.getLast? = some (.glob k) := by
      rwa [isGlob, decide_eq_true_iff] at hg
    obtain ⟨texts, rfl, -⟩ := hglob k (List.mem_of_getLast? hlast) v hv
    refine ⟨texts, hv, ?_⟩
    rw [hget, if_pos hk, valueOf, hg, if_pos rfl, parts_of_texts hv]
  · rw [hget, if_neg hk]

end

/-- A controller and a path of files. -/
def filesDeclaration : Declaration :=
  { Declaration.blank with path := ":controller/files/*path".toList }

def filesRoute : Route := (bare? filesDeclaration).get (by decide +kernel)

/-- A controller, and a path with a slash and a percent sign inside its parts. -/
def filesOptions : Params :=
  .ofList [(controllerKey, .str "blog".toList),
    ("path".toList, .list (["a/b".toList, "50%".toList].map .str))]

/-- Slashes and percent signs inside the parts of a glob come back. -/
theorem match_of_render?_files :
    filesRoute.render? filesOptions .empty = some ("/blog/files/a%2Fb/50%25".toList, .empty) ∧
      ∃ params, filesRoute.match? (decode (normalize "/blog/files/a%2Fb/50%25".toList)) =
        some params := by
  have hbare : CompiledBare filesDeclaration filesRoute :=
    compiledBare_of_bare? rfl (Option.some_get _).symm
  have hrender : filesRoute.render? filesOptions .empty =
      some ("/blog/files/a%2Fb/50%25".toList, .empty) := by decide +kernel
  have hsegments : filesRoute.segments =
      [.capture controllerKey false, .static "files".toList, .glob "path".toList] := by
    decide +kernel
  have hvalue : Rendering.value? ⟨filesRoute, Dict.empty.overlay filesOptions⟩ "path".toList =
      some (.list (["a/b".toList, "50%".toList].map .str)) := by decide +kernel
  refine ⟨hrender, ?_⟩
  obtain ⟨m, -, params, -, hparams, -⟩ := match_of_render? hbare
    ⟨by decide +kernel, by decide +kernel⟩
    (fun pieces hp => by simp [hsegments] at hp)
    (fun name hname v hv => by
      obtain rfl : name = "path".toList := by simpa [hsegments] using hname
      rw [hvalue] at hv
      exact ⟨_, (Option.some.inj hv).symm, by decide⟩) hrender
  exact ⟨params, hparams⟩

end Route

end Routing

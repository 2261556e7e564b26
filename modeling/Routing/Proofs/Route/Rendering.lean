import Routing.Proofs.Route.Language

/-!
# What a route renders

A rendered path spells the required components and the first levels of the optional tail, and what
is left over are the options that neither these nor deeper levels, which would only have repeated
their defaults, have consumed.

* `Rendering.text` — the text of a parameter in a path
* `Rendering.Cut` — where the optional tail of a path ends
* `Route.render?_eq_some`, `Route.isSome_render?` — what is rendered, and when
-/

namespace Routing

variable [Properties]

namespace Rendering

variable {x : Rendering} {name t : Text} {glob : Bool}

/-! ## Captures and segments -/

/-- The text of a parameter in a path; empty when it has none. -/
def text (x : Rendering) (name : Text) : Text :=
  ((x.value? name).bind fun v => v.param?.map (escaped name v)).getD []

/-- A capture is rendered when its parameter has a value with a path form that it admits. -/
theorem capture?_eq_some : x.capture? name glob = some t ↔
    ∃ v raw, x.value? name = some v ∧ v.param? = some raw ∧ x.admits name raw glob = true ∧
      escaped name v raw = t := by
  rw [capture?]
  constructor
  · intro h
    obtain ⟨v, hv, h⟩ := Option.bind_eq_some_iff.1 h
    obtain ⟨raw, hraw, h⟩ := Option.bind_eq_some_iff.1 h
    split at h
    · next hadmits => exact ⟨v, raw, hv, hraw, hadmits, Option.some.inj h⟩
    · cases h
  · rintro ⟨v, raw, hv, hraw, hadmits, rfl⟩
    simp [hv, hraw, hadmits]

theorem text_of_capture? (h : x.capture? name glob = some t) : t = x.text name := by
  obtain ⟨v, raw, hv, hraw, -, rfl⟩ := capture?_eq_some.1 h
  rw [text, hv, Option.bind_some, hraw]
  rfl

/-- The pieces of a component are rendered when each capture among them is, and then they spell
their slots. -/
theorem pieces?_cases {pieces : List Piece} :
    ((x.pieces? pieces).isSome = true ↔
      ∀ name glob, Slot.capture name glob ∈ pieces.map Piece.slot →
        (x.capture? name glob).isSome = true) ∧
      ∀ t, x.pieces? pieces = some t → t = (pieces.map Piece.slot).flatMap (Slot.spell x.text) := by
  -- both halves go by one induction, since the text of the tail is needed where the head is read
  induction pieces with
  | nil => exact ⟨by simp [pieces?], by rintro t ⟨⟩; rfl⟩
  | cons p pieces ih =>
    obtain ⟨hsome, htext⟩ := ih
    cases p with
    | literal u =>
      rw [pieces?, Option.isSome_map, hsome]
      refine ⟨by simp [Piece.slot], fun t ht => ?_⟩
      obtain ⟨v, hv, rfl⟩ := Option.map_eq_some_iff.1 ht
      rw [htext v hv]
      rfl
    | capture n =>
      rw [pieces?, List.map_cons]
      constructor
      · rw [Option.isSome_iff_exists]
        constructor
        · rintro ⟨t, ht⟩ name glob hmem
          obtain ⟨u, hu, ht⟩ := Option.bind_eq_some_iff.1 ht
          obtain ⟨v, hv, -⟩ := Option.bind_eq_some_iff.1 ht
          rcases List.mem_cons.1 hmem with hmem | hmem
          · cases hmem
            rw [hu]
            rfl
          · exact hsome.1 (by rw [hv]; rfl) name glob hmem
        · intro h
          obtain ⟨u, hu⟩ := Option.isSome_iff_exists.1 (h n false List.mem_cons_self)
          obtain ⟨v, hv⟩ := Option.isSome_iff_exists.1
            (hsome.2 fun name glob hmem => h name glob (List.mem_cons_of_mem _ hmem))
          exact ⟨u ++ v, by rw [hu, hv]; rfl⟩
      · intro t ht
        obtain ⟨u, hu, ht⟩ := Option.bind_eq_some_iff.1 ht
        obtain ⟨v, hv, ht⟩ := Option.bind_eq_some_iff.1 ht
        cases ht
        rw [htext v hv, text_of_capture? hu]
        rfl

/-- A segment is rendered when its captures are. -/
theorem isSome_segment? {s : Segment} : (x.segment? s).isSome = true ↔
    ∀ name glob, Slot.capture name glob ∈ s.slots → (x.capture? name glob).isSome = true := by
  cases s with
  | static t => simp [segment?, Segment.slots]
  | capture | glob | format => simp [segment?, Segment.slots]
  | compound pieces => exact pieces?_cases.1

/-- A segment that is rendered spells its slots. -/
theorem segment?_eq_some {s : Segment} (h : x.segment? s = some t) :
    t = s.slots.flatMap (Slot.spell x.text) := by
  cases s with
  | static u =>
    cases h
    exact (List.append_nil _).symm
  | capture | glob | format =>
    rw [text_of_capture? h]
    exact (List.append_nil _).symm
  | compound pieces => exact pieces?_cases.2 t h

/-- A level is rendered when each of its captures is. -/
theorem isSome_level? {l : Level} : (x.level? l).isSome = true ↔
    ∀ name glob, Slot.capture name glob ∈ l.slots → (x.capture? name glob).isSome = true := by
  cases l with
  | component s =>
    rw [level?, isSome_segment?]
    simp [Level.slots]
  | format name => simp [level?, Level.slots]

/-- A level that is rendered spells its separator and its slots. -/
theorem level?_eq_some {l : Level} (h : x.level? l = some t) :
    l.separator :: t = l.spell x.text := by
  cases l with
  | component s =>
    rw [segment?_eq_some h]
    rfl
  | format name =>
    rw [text_of_capture? h]
    exact congrArg ('.' :: ·) (List.append_nil _).symm

/-- The required components are rendered when each of them is, and then each is spelled after a
slash. -/
theorem required?_cases {segments : List Segment} :
    ((x.required? segments).isSome = true ↔ ∀ s ∈ segments, (x.segment? s).isSome = true) ∧
      ∀ t, x.required? segments = some t →
        t = (segments.map Level.component).flatMap (Level.spell x.text) := by
  induction segments with
  | nil => exact ⟨by simp [required?], by rintro t ⟨⟩; rfl⟩
  | cons s segments ih =>
    obtain ⟨hsome, htext⟩ := ih
    rw [required?, List.forall_mem_cons, ← hsome]
    constructor
    · rw [Option.isSome_iff_exists, Option.isSome_iff_exists, Option.isSome_iff_exists]
      constructor
      · rintro ⟨t, ht⟩
        obtain ⟨u, hu, ht⟩ := Option.bind_eq_some_iff.1 ht
        obtain ⟨v, hv, -⟩ := Option.bind_eq_some_iff.1 ht
        exact ⟨⟨u, hu⟩, v, hv⟩
      · rintro ⟨⟨u, hu⟩, v, hv⟩
        exact ⟨'/' :: u ++ v, by rw [hu, hv]; rfl⟩
    · intro t ht
      obtain ⟨u, hu, ht⟩ := Option.bind_eq_some_iff.1 ht
      obtain ⟨v, hv, ht⟩ := Option.bind_eq_some_iff.1 ht
      cases ht
      rw [htext v hv, segment?_eq_some hu]
      rfl

/-! ## The optional tail -/

omit [Properties] in
/-- What is left when some names are taken out. -/
theorem get?_without (params : Params) (names : List Text) (k : Text) :
    (without params names).get? k = if k ∈ names then none else params.get? k := by
  rw [without]
  induction names generalizing params with
  | nil => rfl
  | cons name names ih =>
    rw [List.foldl_cons, ih, Dict.get?_erase]
    by_cases hk : name = k
    · simp [hk]
    · simp [hk, Ne.symm hk]

/-- A level that repeats its defaults. -/
theorem default_of_isDefault {l : Level} (h : x.isDefault l = true) (hname : name ∈ l.names) :
    ∃ d, x.route.defaults.get? name = some d ∧ Value.paramOf? (x.value? name) = d.param? := by
  have hall := List.all_eq_true.1 h name hname
  split at hall
  · cases hall
  · next d hd => exact ⟨d, hd, decide_eq_true_iff.1 hall⟩

/-- Where the tail ends: the first `shown` levels are spelled, the last of which does not repeat its
defaults, and the first `used` ones are rendered. -/
structure Cut (x : Rendering) (pending : Params) (levels : List Level) (shown used : Nat) :
    Prop where
  shown_le : shown ≤ used
  used_le : used ≤ levels.length
  rendered : ∀ l ∈ levels.take used, (x.level? l).isSome = true
  repeated : ∀ l ∈ (levels.take used).drop shown, x.isDefault l = true
  last : ∀ n, shown = n + 1 → ∃ l, levels[n]? = some l ∧ x.isDefault l = false
  stop : ∀ l rest, levels.drop used = l :: rest → x.level? l = none ∨
    ∀ name ∈ (l :: rest).flatMap Level.names, pending.contains name = false

/-- No level of the tail is shown or used when the first cannot be rendered or is not asked for. -/
theorem cut_zero {pending : Params} {levels : List Level}
    (h : ∀ l rest, levels = l :: rest → x.level? l = none ∨
      ∀ name ∈ (l :: rest).flatMap Level.names, pending.contains name = false) :
    Cut x pending levels 0 0 where
  shown_le := Nat.le_refl 0
  used_le := Nat.zero_le _
  rendered := by simp
  repeated := by simp
  last := nofun
  stop := h

/-- A level in front of a cut is shown when a deeper one is, or when it does not repeat its
defaults. -/
theorem Cut.succ {pending : Params} {l : Level} {levels : List Level} {shown used : Nat}
    (h : Cut x pending levels shown used) (hl : (x.level? l).isSome = true)
    (hlast : shown = 0 → x.isDefault l = false) :
    Cut x pending (l :: levels) (shown + 1) (used + 1) where
  shown_le := Nat.succ_le_succ h.shown_le
  used_le := Nat.succ_le_succ h.used_le
  rendered := List.forall_mem_cons.2 ⟨hl, h.rendered⟩
  repeated := h.repeated
  last := by
    intro n hn
    obtain rfl : shown = n := Nat.succ.inj hn
    cases shown with
    | zero => exact ⟨l, rfl, hlast rfl⟩
    | succ n => exact h.last n rfl
  stop := h.stop

/-- A level in front of a cut that shows nothing stays hidden when it repeats its defaults. What it
captures is used up all the same. -/
theorem Cut.hide {pending : Params} {l : Level} {levels : List Level} {used : Nat}
    (h : Cut x pending levels 0 used) (hl : (x.level? l).isSome = true)
    (hdefault : x.isDefault l = true) : Cut x pending (l :: levels) 0 (used + 1) where
  shown_le := Nat.zero_le _
  used_le := Nat.succ_le_succ h.used_le
  rendered := List.forall_mem_cons.2 ⟨hl, h.rendered⟩
  repeated := List.forall_mem_cons.2 ⟨hdefault, h.repeated⟩
  last := nofun
  stop := h.stop

/-- What the tail renders and consumes. -/
theorem tail_eq (x : Rendering) (pending : Params) (levels : List Level) :
    ∃ shown used, Cut x pending levels shown used ∧
      (x.tail pending levels).1 =
        (if shown = 0 then none else some ((levels.take shown).flatMap (Level.spell x.text))) ∧
      ∀ k, (x.tail pending levels).2.get? k =
        if k ∈ (levels.take used).flatMap Level.names then none else pending.get? k := by
  -- on the levels, from the innermost out: what is shown of the rest decides about the level before
  -- it
  induction levels with
  | nil => exact ⟨0, 0, cut_zero (by simp), rfl, fun _ => rfl⟩
  | cons l levels ih =>
    rw [tail]
    split
    · next hnone =>
      -- no option asks for this level or one inside it
      refine ⟨0, 0, cut_zero ?_, rfl, fun _ => rfl⟩
      rintro _ _ ⟨⟩
      right
      intro name hname
      have := List.all_eq_true.1 hnone name hname
      simpa using this
    · split
      · next hlevel =>
        -- the level cannot be rendered
        refine ⟨0, 0, cut_zero ?_, rfl, fun _ => rfl⟩
        rintro _ _ ⟨⟩
        exact .inl hlevel
      · next text hlevel =>
        obtain ⟨shown, used, hcut, htext, hpending⟩ := ih
        have hsome : (x.level? l).isSome = true := by rw [hlevel]; rfl
        have hspell := level?_eq_some hlevel
        generalize x.tail pending levels = p at htext hpending
        obtain ⟨deeper, pending'⟩ := p
        have hget (k : Text) : (without pending' l.names).get? k =
            if k ∈ ((l :: levels).take (used + 1)).flatMap Level.names then none
            else pending.get? k := by
          rw [get?_without, hpending k, List.take_succ_cons, List.flatMap_cons]
          by_cases hk : k ∈ l.names
          · simp [hk]
          · simp only [hk, if_false, List.mem_append, false_or]
        simp only at htext
        rw [htext]
        -- a level with none shown inside it is hidden when it repeats its defaults
        by_cases hzero : shown = 0
        · subst hzero
          by_cases hdefault : x.isDefault l = true
          · refine ⟨0, used + 1, hcut.hide hsome hdefault, ?_, hget⟩
            simp [hdefault]
          · rw [Bool.not_eq_true] at hdefault
            refine ⟨1, used + 1, hcut.succ hsome fun _ => hdefault, ?_, hget⟩
            simp [hdefault, hspell]
        · refine ⟨shown + 1, used + 1, hcut.succ hsome fun h => absurd h hzero, ?_, ?_⟩
          · simp [hzero, ← hspell]
          · simpa [hzero] using hget

end Rendering

/-! ## Routes -/

namespace Route

open Rendering

variable {r : Route} {options recalled : Params}

omit [Properties] in
/-- A level spells something, its separator at least. -/
theorem spell_ne_nil (σ : Text → Text) (l : Level) : l.spell σ ≠ [] := by
  cases l with
  | component s => exact List.cons_ne_nil _ _
  | format name => exact List.cons_ne_nil _ _

omit [Properties] in
/-- A path is what its levels spell, or a slash when that is nothing. -/
theorem path_eq (σ : Text → Text) (levels : List Level) : Level.path σ levels =
    if (levels.flatMap (Level.spell σ)).isEmpty then ['/'] else levels.flatMap (Level.spell σ) := by
  rw [Level.path]
  cases levels with
  | nil => rfl
  | cons l levels =>
    rw [List.isEmpty_cons, if_neg Bool.false_ne_true, if_neg]
    rw [List.isEmpty_iff, List.flatMap_cons, List.append_eq_nil_iff, not_and]
    exact fun h => absurd h (spell_ne_nil σ l)

/-- The options that are left over do not repeat a default. -/
theorem get?_dropDefaults (r : Route) (params : Params) (k : Text) :
    (r.dropDefaults params).get? k =
      (params.get? k).filter fun v => (r.defaults.get? k).all fun d => !d.sameParam v := by
  rw [dropDefaults, Dict.get?_filter]
  cases r.defaults.get? k <;> rfl

/-- A route is rendered when its defaults are met and its required components are rendered. -/
theorem isSome_render? : (r.render? options recalled).isSome = true ↔
    r.meetsDefaults (recalled.overlay options) = true ∧
      ∀ s ∈ r.required, (segment? ⟨r, recalled.overlay options⟩ s).isSome = true := by
  rw [← required?_cases.1, render?]
  by_cases hmeets : r.meetsDefaults (recalled.overlay options) = true
  · simp only [hmeets, Bool.not_true, if_neg Bool.false_ne_true, true_and]
    show Option.isSome (Option.bind (required? _ r.required) _) = true ↔ _
    cases required? ⟨r, recalled.overlay options⟩ r.required with
    | none => exact Iff.rfl
    | some start => exact iff_of_true rfl rfl
  · simp [hmeets]

/-- What a route renders and leaves over. -/
theorem render?_eq_some {path : Text} {pending : Params}
    (h : r.render? options recalled = some (path, pending)) :
    ∃ shown used, Cut ⟨r, recalled.overlay options⟩ options r.levels shown used ∧
      path = Level.path (text ⟨r, recalled.overlay options⟩) (r.shown shown) ∧
      ∀ k, pending.get? k = if k ∈ (r.shown used).flatMap Level.names then none
        else (options.get? k).filter fun v => (r.defaults.get? k).all fun d => !d.sameParam v := by
  have hsome := (isSome_render?.1 (by rw [h]; rfl)).1
  unfold render? at h
  simp only [hsome, Bool.not_true, if_neg Bool.false_ne_true] at h
  obtain ⟨start, hstart, h⟩ := Option.bind_eq_some_iff.1 h
  change required? ⟨r, recalled.overlay options⟩ r.required = some start at hstart
  generalize hx : (⟨r, recalled.overlay options⟩ : Rendering) = x at *
  change some (if (start ++ (x.tail options r.levels).1.getD []).isEmpty then ['/']
      else start ++ (x.tail options r.levels).1.getD [],
    r.dropDefaults (without (x.tail options r.levels).2 (segmentNames r.required))) =
      some (path, pending) at h
  obtain ⟨rfl, rfl⟩ := Prod.mk.inj (Option.some.inj h)
  -- the tail ends at a cut, and the required components stand before it
  obtain ⟨shown, used, hcut, htext, hpending⟩ := x.tail_eq options r.levels
  have hspell : start ++ (x.tail options r.levels).1.getD [] =
      (r.shown shown).flatMap (Level.spell x.text) := by
    rw [htext, Route.shown, List.flatMap_append, required?_cases.2 start hstart]
    by_cases hzero : shown = 0
    · rw [if_pos hzero, hzero]
      rfl
    · rw [if_neg hzero]
      rfl
  have hnames : (r.required.map Level.component).flatMap Level.names = segmentNames r.required :=
    List.flatMap_map ..
  refine ⟨shown, used, hcut, ?_, fun k => ?_⟩
  · rw [hspell, path_eq]
  · rw [get?_dropDefaults, get?_without, hpending, Route.shown, List.flatMap_append, hnames]
    by_cases hk : k ∈ segmentNames r.required
    · simp [hk]
    · by_cases hk' : k ∈ (r.levels.take used).flatMap Level.names
      · simp only [hk, hk', List.mem_append, if_true, if_false, or_true]
        rfl
      · simp only [hk, hk', List.mem_append, if_false, or_self]

/-- A longer path shows what a shorter one shows. -/
theorem shown_subset {m n : Nat} (h : m ≤ n) : r.shown m ⊆ r.shown n := by
  intro l hl
  rcases List.mem_append.1 hl with hl | hl
  · exact List.mem_append_left _ hl
  · exact List.mem_append_right _ (List.take_subset_take_left _ h hl)

/-- A level that is shown in the one path and not in the other may be missing. -/
theorem mem_drop_of_not_shown {m n : Nat} {l : Level} (h : l ∈ r.shown m) (hn : l ∉ r.shown n) :
    n < m ∧ l ∈ (r.levels.take m).drop n := by
  have htake : l ∉ r.levels.take n := fun h => hn (List.mem_append_right _ h)
  have hmem : l ∈ r.levels.take m :=
    (List.mem_append.1 h).resolve_left fun h => hn (List.mem_append_left _ h)
  have hlt : n < m := by
    by_contra hle
    exact htake (List.take_subset_take_left _ (Nat.le_of_not_lt hle) hmem)
  refine ⟨hlt, ?_⟩
  rw [← List.take_append_drop n (r.levels.take m), List.take_take,
    Nat.min_eq_left (Nat.le_of_lt hlt)] at hmem
  exact (List.mem_append.1 hmem).resolve_left htake

/-- What a path captures, shown or not, is rendered. -/
theorem captures_of_render? {path : Text} {pending : Params} {shown used : Nat}
    (h : r.render? options recalled = some (path, pending))
    (hcut : Cut ⟨r, recalled.overlay options⟩ options r.levels shown used) :
    ∀ l ∈ r.shown used, ∀ name glob, Slot.capture name glob ∈ l.slots →
      (capture? ⟨r, recalled.overlay options⟩ name glob).isSome = true := by
  intro l hl
  have hrequired := (isSome_render?.1 (by rw [h]; rfl)).2
  rcases List.mem_append.1 hl with hl | hl
  · obtain ⟨s, hs, rfl⟩ := List.mem_map.1 hl
    exact isSome_level?.1 (hrequired s hs)
  · exact isSome_level?.1 (hcut.rendered l hl)

end Route

end Routing

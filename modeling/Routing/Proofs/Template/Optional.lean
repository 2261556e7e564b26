import Routing.Proofs.Template.Shape

/-!
# The optional tail

Whether a capture may be missing is found from right to left, with the defaults being dropped on
the way. Told from the outside it depends on what stands to its right and on the defaults as they
were: the capture and every component after it must be one that may be missing by itself.

* `Template.MayMiss` — a capture that may be missing by itself
* `Template.Missable` — segments of which every component is such a capture
* `Template.Tail.Analysed`, `Template.analysed_of_read` — what is known of the tail found so far,
  and of all segments in the end
* `Template.optional_iff_missable` — which captures are optional, and which defaults remain
-/

namespace Routing.Template

variable {required : List Text} {defaults : Params}

/-! ## Captures that may be missing -/

/-- A capture that may be missing by itself, `after` being the segments to its right: no requirement
insists on it, it has a meaning of its own or a default, and it is no `id` before an `action`. -/
structure MayMiss (required : List Text) (defaults : Params) (name : Text) (after : List Segment) :
    Prop where
  free : name ∉ required
  known : name = controllerKey ∨ name = actionKey ∨ name = idKey ∨ (defaults.get? name).isSome
  apart : name = idKey → ∀ optional, .capture actionKey optional ∉ after

/-- Segments of which every component is a capture that may be missing by itself. -/
def Missable (required : List Text) (defaults : Params) (segments : List Segment) : Prop :=
  ∀ before s after, segments = before ++ s :: after → (∃ name, s = .format name) ∨
    ∃ name optional, s = .capture name optional ∧ MayMiss required defaults name after

/-- The first segment may be missing, and so may the others. -/
theorem missable_cons {s : Segment} {segments : List Segment} :
    Missable required defaults (s :: segments) ↔
      ((∃ name, s = .format name) ∨
        ∃ name optional, s = .capture name optional ∧ MayMiss required defaults name segments) ∧
      Missable required defaults segments := by
  constructor
  · intro h
    refine ⟨h [] s segments rfl, fun before t after heq => h (s :: before) t after ?_⟩
    rw [heq, List.cons_append]
  · rintro ⟨hs, hrest⟩ before t after heq
    cases before with
    | nil =>
      obtain ⟨rfl, rfl⟩ := List.cons.inj heq
      exact hs
    | cons _ before => exact hrest before t after (List.cons.inj heq).2

/-- A capture in front may be missing by itself, and the others may be missing. -/
theorem missable_capture {name : Text} {optional : Bool} {segments : List Segment} :
    Missable required defaults (.capture name optional :: segments) ↔
      MayMiss required defaults name segments ∧ Missable required defaults segments := by
  rw [missable_cons]
  constructor
  · rintro ⟨⟨_, ⟨⟩⟩ | ⟨_, _, ⟨⟩, hname⟩, hrest⟩
    exact ⟨hname, hrest⟩
  · rintro ⟨hname, hrest⟩
    exact ⟨.inr ⟨_, _, rfl, hname⟩, hrest⟩

/-- Captures marked optional exactly where they and what follows may be missing. -/
def Marked (required : List Text) (defaults : Params) (segments : List Segment) : Prop :=
  ∀ before s after, segments = before ++ s :: after → ((∃ name, s = .capture name true) ↔
    (∃ name optional, s = .capture name optional) ∧ Missable required defaults (s :: after))

/-- The first segment is marked right, and so are the others. -/
theorem marked_cons {s : Segment} {segments : List Segment}
    (hs : (∃ name, s = .capture name true) ↔
      (∃ name optional, s = .capture name optional) ∧ Missable required defaults (s :: segments))
    (h : Marked required defaults segments) : Marked required defaults (s :: segments) := by
  intro before t after heq
  cases before with
  | nil =>
    obtain ⟨rfl, rfl⟩ := List.cons.inj heq
    exact hs
  | cons _ before => exact h before t after (List.cons.inj heq).2

/-- Defaults that have only told that a capture may be missing. -/
def Dropped (segments : List Segment) (k : Text) (v : Value) : Prop :=
  v = .nil ∧ .capture k true ∈ segments ∧ k ≠ controllerKey ∧ k ≠ actionKey ∧ k ≠ idKey

theorem dropped_cons {s : Segment} {segments : List Segment} {k : Text} {v : Value}
    (hs : s ≠ .capture k true) : Dropped (s :: segments) k v ↔ Dropped segments k v := by
  rw [Dropped, Dropped, List.mem_cons, or_iff_right hs.symm]

/-- Three names have a meaning without a default. -/
theorem mayBeLeftOut_eq_false {name : Text} : mayBeLeftOut name = false ↔
    name ≠ controllerKey ∧ name ≠ actionKey ∧ name ≠ idKey := by
  simp [mayBeLeftOut, and_assoc]

/-! ## Going from right to left -/

/-- What is known of the tail found so far: whether all of it may be missing, whether an action is
captured in it, its marks, and the defaults that remain. -/
structure Tail.Analysed (required : List Text) (defaults : Params) (t : Tail) : Prop where
  optional_iff : t.optional = true ↔ Missable required defaults t.segments
  hasAction_iff : t.optional = true →
    (t.hasAction = true ↔ ∃ optional, .capture actionKey optional ∈ t.segments)
  marked : Marked required defaults t.segments
  remaining : ∀ k v, t.defaults.get? k = some v ↔
    defaults.get? k = some v ∧ ¬ Dropped t.segments k v

namespace Tail.Analysed

theorem nil : (Tail.nil defaults).Analysed required defaults where
  optional_iff := by simp [Tail.nil, Missable]
  hasAction_iff := by simp [Tail.nil]
  marked := by simp [Marked, Tail.nil]
  remaining := by simp [Tail.nil, Dropped]

/-- A format changes nothing of the tail. -/
theorem format {t : Tail} (h : t.Analysed required defaults) :
    t.format.Analysed required defaults where
  optional_iff := by
    show t.optional = true ↔ Missable required defaults (.format _ :: t.segments)
    rw [missable_cons, h.optional_iff]
    exact ⟨fun hrest => ⟨.inl ⟨_, rfl⟩, hrest⟩, And.right⟩
  hasAction_iff := by
    intro hopt
    show t.hasAction = true ↔ ∃ optional, _ ∈ Segment.format _ :: t.segments
    rw [h.hasAction_iff hopt]
    simp
  marked := by
    apply marked_cons _ h.marked
    exact ⟨by rintro ⟨_, ⟨⟩⟩, by rintro ⟨⟨_, _, ⟨⟩⟩, -⟩⟩
  remaining := by
    intro k v
    show t.defaults.get? k = some v ↔ _ ∧ ¬ Dropped (.format _ :: t.segments) k v
    rw [h.remaining, dropped_cons (by simp)]

/-- A segment that cannot be missing ends the tail. -/
theorem require {t : Tail} {s : Segment} (h : t.Analysed required defaults)
    (hs : s.isOptional = false)
    (hcapture : ∀ name optional, s = .capture name optional → name ∈ required) :
    (t.require s).Analysed required defaults := by
  have hopen : ¬ Missable required defaults (s :: t.segments) := by
    rw [missable_cons]
    rintro ⟨⟨_, rfl⟩ | ⟨name, optional, rfl, hmiss⟩, -⟩
    · cases hs
    · exact hmiss.free (hcapture name optional rfl)
  have hmark : ∀ name, s ≠ .capture name true := by
    rintro name rfl
    cases hs
  refine ⟨?_, by rintro ⟨⟩, marked_cons ?_ h.marked, ?_⟩
  · exact ⟨by rintro ⟨⟩, fun hmiss => absurd hmiss hopen⟩
  · exact ⟨fun ⟨name, hname⟩ => absurd hname (hmark name), fun hmiss => absurd hmiss.2 hopen⟩
  · intro k v
    show t.defaults.get? k = some v ↔ _ ∧ ¬ Dropped (s :: t.segments) k v
    rw [h.remaining, dropped_cons (hmark k)]

/-- The defaults may have lost entries on the way, but not that of a name which is not captured
yet. -/
theorem get?_new {t : Tail} {name : Text} (h : t.Analysed required defaults)
    (hnew : name ∉ segmentNames t.segments) : t.defaults.get? name = defaults.get? name := by
  apply Option.ext
  intro v
  rw [h.remaining, and_iff_left]
  rintro ⟨-, hmem, -⟩
  exact hnew (List.mem_flatMap.2 ⟨_, hmem, List.mem_singleton_self name⟩)

/-- The tail may grow by a capture that may be missing by itself. -/
theorem admits_iff {t : Tail} {name : Text} (h : t.Analysed required defaults)
    (hreq : name ∉ required) (hnew : name ∉ segmentNames t.segments) :
    t.admits name = true ↔
      MayMiss required defaults name t.segments ∧ Missable required defaults t.segments := by
  rw [Tail.admits, Bool.and_eq_true, Bool.and_eq_true, ← h.optional_iff, Dict.contains,
    h.get?_new hnew]
  constructor
  · rintro ⟨⟨hopt, hid⟩, hknown⟩
    refine ⟨⟨hreq, ?_, ?_⟩, hopt⟩
    · simpa [mayBeLeftOut, or_assoc] using hknown
    · intro hname optional hmem
      have haction := (h.hasAction_iff hopt).2 ⟨optional, hmem⟩
      simp [hname, haction] at hid
  · rintro ⟨⟨-, hknown, hid⟩, hopt⟩
    refine ⟨⟨hopt, ?_⟩, ?_⟩
    -- an identifier may be missing only when no action is captured behind it
    · cases haction : t.hasAction with
      | false => simp
      | true =>
        obtain ⟨optional, hmem⟩ := (h.hasAction_iff hopt).1 haction
        have hne : name ≠ idKey := fun hname => hid hname optional hmem
        simp [hne]
    · simpa [mayBeLeftOut, or_assoc] using hknown

/-- A default is dropped for the capture in front exactly when the tail grows by it. -/
theorem remaining_capture {t : Tail} {name : Text} (h : t.Analysed required defaults)
    (hnew : name ∉ segmentNames t.segments) (k : Text) (v : Value) :
    (t.capture name).defaults.get? k = some v ↔
      defaults.get? k = some v ∧ ¬ Dropped (t.capture name).segments k v := by
  have habsent (optional : Bool) : .capture name optional ∉ t.segments := fun hmem =>
    hnew (List.mem_flatMap.2 ⟨_, hmem, List.mem_singleton_self name⟩)
  show (if t.admits name ∧ !mayBeLeftOut name ∧ t.defaults.get? name = some .nil then
      t.defaults.erase name else t.defaults).get? k = some v ↔
    _ ∧ ¬ Dropped (.capture name (t.admits name) :: t.segments) k v
  rw [h.get?_new hnew]
  -- only the default of the captured name itself can be dropped
  by_cases hk : k = name
  · subst hk
    have hdropped : Dropped (.capture k (t.admits k) :: t.segments) k v ↔
        t.admits k = true ∧ mayBeLeftOut k = false ∧ v = .nil := by
      rw [Dropped, List.mem_cons, or_iff_left (habsent true), mayBeLeftOut_eq_false,
        Segment.capture.injEq]
      grind
    rw [hdropped]
    split
    · next hdrop =>
      obtain ⟨hopt, hown, hnil⟩ := hdrop
      rw [Dict.get?_erase, if_pos rfl, hnil]
      simp only [Bool.not_eq_true'] at hown
      refine ⟨nofun, fun ⟨hv, hkeep⟩ => absurd ⟨hopt, hown, ?_⟩ hkeep⟩
      exact (Option.some.inj hv).symm
    · next hkeep =>
      rw [h.get?_new hnew, iff_self_and]
      rintro hv ⟨hopt, hown, rfl⟩
      exact hkeep ⟨hopt, by rw [hown]; rfl, hv⟩
  · have hne : Segment.capture name (t.admits name) ≠ .capture k true := fun heq =>
      hk (Segment.capture.inj heq).1.symm
    rw [dropped_cons hne, ← h.remaining]
    split
    · rw [Dict.get?_erase, if_neg (Ne.symm hk)]
    · rfl

/-- A capture with a new name stands before the tail, and is optional when the tail grows by it. -/
theorem capture {t : Tail} {name : Text} (h : t.Analysed required defaults)
    (hreq : name ∉ required) (hnew : name ∉ segmentNames t.segments) :
    (t.capture name).Analysed required defaults := by
  have hadmits := h.admits_iff hreq hnew
  refine ⟨?_, ?_, ?_, h.remaining_capture hnew⟩
  · show t.admits name = true ↔ Missable required defaults (.capture name _ :: t.segments)
    rw [missable_capture, hadmits]
  · intro hopt
    have hopt := h.optional_iff.2 (hadmits.1 hopt).2
    show (t.hasAction || decide (name = actionKey)) = true ↔
      ∃ optional, _ ∈ Segment.capture name (t.admits name) :: t.segments
    rw [Bool.or_eq_true, h.hasAction_iff hopt, decide_eq_true_eq]
    constructor
    · rintro (⟨optional, hmem⟩ | rfl)
      · exact ⟨optional, List.mem_cons_of_mem _ hmem⟩
      · exact ⟨_, List.mem_cons_self⟩
    · rintro ⟨optional, hmem⟩
      rcases List.mem_cons.1 hmem with heq | hmem
      · exact .inr (Segment.capture.inj heq).1.symm
      · exact .inl ⟨optional, hmem⟩
  · show Marked required defaults (.capture name (t.admits name) :: t.segments)
    apply marked_cons _ h.marked
    rw [missable_capture, ← hadmits]
    constructor
    · rintro ⟨_, heq⟩
      exact ⟨⟨_, _, rfl⟩, (Segment.capture.inj heq).2⟩
    · rintro ⟨-, hopt⟩
      exact ⟨name, by rw [hopt]⟩

/-- A component with a new name stands before the tail. -/
theorem cons {t : Tail} {c : Component} (h : t.Analysed required defaults)
    (hnew : ∀ name ∈ c.kind.names,
      name ∉ (if c.format then [Component.formatName] else []) ++ segmentNames t.segments) :
    (Tail.cons required c t).Analysed required defaults := by
  obtain ⟨kind, format⟩ := c
  have hformat : (if format then t.format else t).Analysed required defaults := by
    cases format with
    | false => exact h
    | true => exact h.format
  have hnames : segmentNames (if format then t.format else t).segments =
      (if format then [Component.formatName] else []) ++ segmentNames t.segments := by
    cases format <;> rfl
  simp only at hnew
  rw [← hnames] at hnew
  unfold Tail.cons
  simp only
  -- a component with the suffix stands before a tail with the format
  generalize (if format then t.format else t) = t at hformat hnew
  cases kind with
  | static | glob | compound => exact hformat.require rfl nofun
  | capture name =>
    show (if name ∈ required then t.require (.capture name false)
      else t.capture name).Analysed required defaults
    split
    · next hreq =>
      apply hformat.require rfl
      rintro _ _ ⟨⟩
      exact hreq
    · next hreq => exact hformat.capture hreq (hnew name List.mem_cons_self)

/-- No requirement insists on a capture that may be missing. -/
theorem free_of_optional {t : Tail} {name : Text} (h : t.Analysed required defaults)
    (hs : .capture name true ∈ t.segments) : name ∉ required := by
  obtain ⟨before, after, hsplit⟩ := List.append_of_mem hs
  have hmissable := ((h.marked before _ after hsplit).1 ⟨name, rfl⟩).2
  exact (missable_capture.1 hmissable).1.free

end Tail.Analysed

/-- All components, from right to left. -/
theorem analysed_arrange {comps : List Component}
    (h : (comps.flatMap Component.names).Nodup) :
    (arrange required defaults comps).Analysed required defaults := by
  induction comps with
  | nil => exact .nil
  | cons c comps ih =>
    rw [List.flatMap_cons, Component.names, List.append_assoc] at h
    obtain ⟨-, hrest, hdisjoint⟩ := List.nodup_append.1 h
    have hcomps := ih (List.nodup_append.1 hrest).2.1
    apply hcomps.cons
    intro name hname hmem
    rw [names_arrange] at hmem
    exact hdisjoint name hname name hmem rfl

/-- What reading a pattern leaves is known in the same way. -/
theorem analysed_of_read {pattern : Text} {defaults' : Params} {segments : List Segment}
    (h : read pattern defaults required = .ok (segments, defaults')) :
    ∃ t : Tail, t.segments = segments ∧ t.defaults = defaults' ∧ t.Analysed required defaults := by
  obtain ⟨comps, hcomps, h⟩ := bind_eq_ok.1 h
  cases h
  exact ⟨_, rfl, rfl, analysed_arrange (readComponents_ok hcomps .nil).2⟩

/-- A capture is optional exactly when it and every component to its right may be missing by
itself, so that the optional segments stand at the end. Of the defaults only those are dropped which
have told no more than that a capture may be missing. -/
theorem optional_iff_missable {pattern : Text} {required : List Text}
    {defaults defaults' : Params} {segments : List Segment}
    (h : read pattern defaults required = .ok (segments, defaults')) :
    (∀ before s after, segments = before ++ s :: after → ((∃ name, s = .capture name true) ↔
        (∃ name optional, s = .capture name optional) ∧
          Missable required defaults (s :: after))) ∧
      (∃ fixed tail, segments = fixed ++ tail ∧ (∀ s ∈ fixed, s.isOptional = false) ∧
        ∀ s ∈ tail, s.isOptional = true) ∧
      ∀ k v, defaults'.get? k = some v ↔ defaults.get? k = some v ∧
        ¬ (v = .nil ∧ .capture k true ∈ segments ∧
          k ≠ controllerKey ∧ k ≠ actionKey ∧ k ≠ idKey) := by
  obtain ⟨x, hx, hshape, -⟩ := shape_of_read h
  obtain ⟨comps, hcomps, h⟩ := bind_eq_ok.1 h
  cases h
  obtain ⟨-, hnodup⟩ := readComponents_ok hcomps .nil
  have hanalysed : (arrange required defaults comps).Analysed required defaults :=
    analysed_arrange hnodup
  refine ⟨hanalysed.marked, ⟨x.required, x.optional ++ x.format?.toList.map .format, ?_,
    hshape.required, ?_⟩, hanalysed.remaining⟩
  · rw [hx, Parts.segments, List.append_assoc]
  · intro s hs
    rcases List.mem_append.1 hs with hs | hs
    · obtain ⟨name, rfl⟩ := hshape.optional s hs
      rfl
    · obtain ⟨name, -, rfl⟩ := List.mem_map.1 hs
      rfl

/-- The page may be missing because of its default, which is then dropped. -/
theorem optional_iff_missable_page :
    read ":controller/:action/:id/:page.:format".toList (.ofList [("page".toList, .nil)])
        [controllerKey] = .ok ([.capture controllerKey false, .capture actionKey true,
          .capture idKey true, .capture "page".toList true, .format "format".toList], .empty) ∧
      (∀ before s after, [Segment.capture controllerKey false, .capture actionKey true,
          .capture idKey true, .capture "page".toList true, .format "format".toList] =
            before ++ s :: after → ((∃ name, s = .capture name true) ↔
        (∃ name optional, s = .capture name optional) ∧
          Missable [controllerKey] (.ofList [("page".toList, .nil)]) (s :: after))) ∧
      ∀ k v, (Dict.empty : Params).get? k = some v ↔
        (Dict.ofList [("page".toList, Value.nil)]).get? k = some v ∧
          ¬ (v = .nil ∧ .capture k true ∈ [Segment.capture controllerKey false,
            .capture actionKey true, .capture idKey true, .capture "page".toList true,
            .format "format".toList] ∧ k ≠ controllerKey ∧ k ≠ actionKey ∧ k ≠ idKey) := by
  have hread : read ":controller/:action/:id/:page.:format".toList
      (.ofList [("page".toList, .nil)]) [controllerKey] =
        .ok ([.capture controllerKey false, .capture actionKey true, .capture idKey true,
          .capture "page".toList true, .format "format".toList], .empty) := by
    decide +kernel
  obtain ⟨hmarked, -, hdefaults⟩ := optional_iff_missable hread
  exact ⟨hread, hmarked, hdefaults⟩

end Routing.Template

import Mathlib.Data.List.Basic
import Mathlib.Data.List.TakeWhile
import Routing.Path

/-!
# Canonical paths

A path is canonical exactly when it is put together of its own components. So the components of a
path determine the one canonical path that has them, and making a path canonical gives that path,
whether the path was canonical already or had to be put together.

* `Path.mem_components`, `Path.components_ofComponents` — components, split and joined
* `Path.isCanonical_ofComponents`, `Path.ofComponents_components` — canonical paths and components
* `Path.normalize_eq` — a path is made canonical by putting it together of its components
* `Path.canonical_iff_eq_normalize` — the canonical path with the components of a path
-/

namespace Routing.Path

/-! ## Components -/

theorem components_append_slash (s t : Text) :
    components (s ++ '/' :: t) = components s ++ components t := by
  rw [components, List.splitOn_append_cons_self, List.filter_append]
  rfl

theorem components_slash (t : Text) : components ('/' :: t) = components t :=
  components_append_slash [] t

/-- The characters of the parts are in the text. -/
theorem mem_intercalate_of_mem {parts : List Text} {part : Text} {c : Char} (hpart : part ∈ parts)
    (hc : c ∈ part) : c ∈ ['/'].intercalate parts := by
  induction parts with
  | nil => cases hpart
  | cons p parts ih =>
    cases parts with
    | nil =>
      obtain rfl := List.mem_singleton.1 hpart
      rwa [List.intercalate_singleton]
    | cons q parts =>
      rw [List.intercalate_cons_cons, List.mem_append, List.mem_append]
      rcases List.mem_cons.1 hpart with rfl | hpart
      · exact .inl (.inl hc)
      · exact .inr (ih hpart)

/-- A character of the text is a separator or one of a part. -/
theorem mem_of_mem_intercalate {sep : Char} {parts : List Text} {c : Char}
    (h : c ∈ [sep].intercalate parts) : c = sep ∨ ∃ part ∈ parts, c ∈ part := by
  induction parts with
  | nil => cases h
  | cons p parts ih =>
    cases parts with
    | nil =>
      rw [List.intercalate_singleton] at h
      exact .inr ⟨p, List.mem_cons_self, h⟩
    | cons q parts =>
      rw [List.intercalate_cons_cons, List.mem_append, List.mem_append, List.mem_singleton] at h
      rcases h with (h | h) | h
      · exact .inr ⟨p, List.mem_cons_self, h⟩
      · exact .inl h
      · rcases ih h with h | ⟨part, hpart, hc⟩
        · exact .inl h
        · exact .inr ⟨part, List.mem_cons_of_mem p hpart, hc⟩

/-- The characters of a component are those of the path. -/
theorem mem_of_mem_components {s part : Text} {c : Char} (hpart : part ∈ components s)
    (hc : c ∈ part) : c ∈ s := by
  have := mem_intercalate_of_mem (List.mem_filter.1 hpart).1 hc
  rwa [List.intercalate_splitOn] at this

theorem components_of_part {part : Text} (hne : part ≠ []) (hslash : '/' ∉ part) :
    components part = [part] := by
  rw [components, List.splitOn_eq_singleton hslash]
  simpa using hne

/-- A part between slashes has no slash. -/
theorem slash_not_mem_of_mem_splitOn {s part : Text} (h : part ∈ s.splitOn '/') : '/' ∉ part := by
  induction s generalizing part with
  | nil =>
    rw [List.splitOn_nil, List.mem_singleton] at h
    simp [h]
  | cons c s ih =>
    rw [List.splitOn_cons_eq_if_modifyHead] at h
    split at h
    · rcases List.mem_cons.1 h with rfl | h
      · simp
      · exact ih h
    · next hc =>
      cases hs : s.splitOn '/' with
      | nil => exact absurd hs (List.splitOn_ne_nil _ _)
      | cons p ps =>
        rw [hs] at h ih
        rcases List.mem_cons.1 h with rfl | h
        · rw [List.mem_cons, not_or]
          exact ⟨fun h => hc (by simp [← h]), ih List.mem_cons_self⟩
        · exact ih (List.mem_cons_of_mem p h)

/-- A component is not empty and has no slash. -/
theorem mem_components {s part : Text} (h : part ∈ components s) : part ≠ [] ∧ '/' ∉ part := by
  obtain ⟨hmem, hne⟩ := List.mem_filter.1 h
  exact ⟨by simpa using hne, slash_not_mem_of_mem_splitOn hmem⟩

/-- The components of a row of components. -/
theorem components_flatMap {parts : List Text} (h : ∀ part ∈ parts, part ≠ [] ∧ '/' ∉ part) :
    components (parts.flatMap ('/' :: ·)) = parts := by
  induction parts with
  | nil => rfl
  | cons part parts ih =>
    obtain ⟨⟨hne, hslash⟩, hparts⟩ := List.forall_mem_cons.1 h
    have hrest := ih hparts
    rw [List.flatMap_cons, List.cons_append, components_slash]
    -- the slash that ends this part is the one in front of the next
    cases parts with
    | nil => rw [List.flatMap_nil, List.append_nil, components_of_part hne hslash]
    | cons next parts =>
      rw [List.flatMap_cons, List.cons_append, components_slash] at hrest
      rw [List.flatMap_cons, List.cons_append, components_append_slash, hrest,
        components_of_part hne hslash]
      rfl

/-- A path puts a slash in front of every component. -/
theorem ofComponents_eq_flatMap {parts : List Text} (h : parts ≠ []) :
    ofComponents parts = parts.flatMap ('/' :: ·) := by
  induction parts with
  | nil => exact absurd rfl h
  | cons part parts ih =>
    cases parts with
    | nil => simp [ofComponents]
    | cons next parts =>
      have := ih (by simp)
      rw [List.flatMap_cons, ← this, ofComponents, List.intercalate_cons_cons, ofComponents]
      simp

theorem components_ofComponents {parts : List Text} (h : ∀ part ∈ parts, part ≠ [] ∧ '/' ∉ part) :
    components (ofComponents parts) = parts := by
  by_cases hnil : parts = []
  · subst hnil
    rfl
  · rw [ofComponents_eq_flatMap hnil, components_flatMap h]

theorem beforeQuery_of_plain {p : Text} (hp : '?' ∉ p) : beforeQuery p = p := by
  rw [beforeQuery, List.takeWhile_eq_self_iff]
  intro c hc
  rw [decide_eq_true_iff]
  rintro rfl
  exact hp hc

variable {s t : Text} {parts : List Text}

/-! ## Slashes side by side -/

/-- An empty part begins at a slash before another, or further on. -/
theorem hasEmptyPart_cons (c : Char) (s : Text) :
    hasEmptyPart (c :: s) = (decide (c = '/' ∧ s.head? = some '/') || hasEmptyPart s) := by
  cases s with
  | nil => simp [hasEmptyPart]
  | cons d s => simp [hasEmptyPart]

/-- A text without slashes in front changes nothing. -/
theorem hasEmptyPart_append (h : '/' ∉ t) (s : Text) : hasEmptyPart (t ++ s) = hasEmptyPart s := by
  induction t with
  | nil => rfl
  | cons c t ih =>
    obtain ⟨hc, ht⟩ := not_or.1 (mt List.mem_cons.2 h)
    rw [List.cons_append, hasEmptyPart_cons, ih ht, decide_eq_false (fun h => hc h.1.symm),
      Bool.false_or]

/-- Components that are not empty leave no empty part. -/
theorem hasEmptyPart_flatMap (h : ∀ part ∈ parts, part ≠ [] ∧ '/' ∉ part) :
    hasEmptyPart (parts.flatMap ('/' :: ·)) = false := by
  induction parts with
  | nil => rfl
  | cons part parts ih =>
    obtain ⟨⟨hne, hslash⟩, hparts⟩ := List.forall_mem_cons.1 h
    rw [List.flatMap_cons, List.cons_append, hasEmptyPart_cons, hasEmptyPart_append hslash,
      ih hparts, Bool.or_false, decide_eq_false_iff_not]
    rintro ⟨-, hhead⟩
    obtain ⟨c, rest, rfl⟩ := List.exists_cons_of_ne_nil hne
    cases hhead
    exact hslash List.mem_cons_self

/-- A path of components does not end with a slash. -/
theorem getLast?_flatMap_ne (h : ∀ part ∈ parts, part ≠ [] ∧ '/' ∉ part) (hne : parts ≠ []) :
    (parts.flatMap ('/' :: ·)).getLast? ≠ some '/' := by
  obtain ⟨front, last, rfl⟩ := (List.eq_nil_or_concat parts).resolve_left hne
  rw [List.concat_eq_append] at h ⊢
  obtain ⟨hlast, hslash⟩ := h last (List.mem_append_right _ List.mem_cons_self)
  obtain ⟨c, hc⟩ := Option.isSome_iff_exists.1 (List.getLast?_isSome.2 hlast)
  have hmem : c ∈ last := List.mem_of_getLast? hc
  rw [List.flatMap_append, List.flatMap_singleton, List.getLast?_append, List.getLast?_cons, hc]
  rintro ⟨⟩
  exact hslash hmem

/-- The parts behind the first slash of a text are not empty, unless slashes stand side by side or
at its end. -/
theorem ne_nil_of_mem_tail_splitOn (h : hasEmptyPart s = false) (hlast : s.getLast? ≠ some '/') :
    ∀ part ∈ (s.splitOn '/').tail, part ≠ [] := by
  -- on the text; the first part alone may be empty, so it is left out
  induction s with
  | nil => simp
  | cons c s ih =>
    rw [hasEmptyPart_cons, Bool.or_eq_false_iff, decide_eq_false_iff_not] at h
    obtain ⟨hhead, hempty⟩ := h
    have hlast' : s.getLast? ≠ some '/' := by
      cases s with
      | nil => simp
      | cons d s => rwa [List.getLast?_cons_cons] at hlast
    have hrest := ih hempty hlast'
    rw [List.splitOn_cons_eq_if_modifyHead]
    split
    · next hc =>
      have hc : c = '/' := by simpa using hc
      rw [List.tail_cons]
      -- the slash is followed by another character, with which the next part begins
      cases s with
      | nil => exact absurd (by rw [hc]; rfl) hlast
      | cons d s =>
        have hd : d ≠ '/' := fun hd => hhead ⟨hc, by rw [hd]; rfl⟩
        rw [List.splitOn_cons_eq_if_modifyHead, if_neg (by simpa using hd)] at hrest ⊢
        cases hs : s.splitOn '/' with
        | nil => exact absurd hs (List.splitOn_ne_nil _ _)
        | cons p ps =>
          rw [hs] at hrest
          exact List.forall_mem_cons.2 ⟨List.cons_ne_nil d p, hrest⟩
    · rwa [List.tail_modifyHead]

/-! ## Canonical paths and their components -/

/-- A path of components is canonical. -/
theorem isCanonical_ofComponents (h : ∀ part ∈ parts, part ≠ [] ∧ '/' ∉ part) :
    isCanonical (ofComponents parts) = true := by
  by_cases hne : parts = []
  · subst hne
    rfl
  · have hhead : (ofComponents parts).head? = some '/' := rfl
    rw [isCanonical, hhead, ofComponents_eq_flatMap hne, hasEmptyPart_flatMap h,
      decide_eq_true (getLast?_flatMap_ne h hne), Bool.or_true]
    rfl

/-- A canonical path is put together of its components. -/
theorem ofComponents_components (h : isCanonical s = true) : ofComponents (components s) = s := by
  simp only [isCanonical, Bool.and_eq_true, decide_eq_true_eq, Bool.not_eq_true', Bool.or_eq_true]
    at h
  obtain ⟨⟨hhead, hempty⟩, hend⟩ := h
  obtain ⟨t, rfl⟩ := List.head?_eq_some_iff.1 hhead
  rcases hend with hroot | hlast
  · rw [hroot]
    rfl
  · -- behind the slash in front there is no empty part
    have hparts := ne_nil_of_mem_tail_splitOn hempty hlast
    rw [List.splitOn_cons_eq_if_modifyHead, if_pos (by simp), List.tail_cons] at hparts
    have hcomponents : components t = t.splitOn '/' := by
      rw [components, List.filter_eq_self]
      intro part hpart
      simpa using hparts part hpart
    rw [components_slash, hcomponents, ofComponents, List.intercalate_splitOn]

/-- Making a path canonical puts it together of its components, also where it is canonical. -/
theorem normalize_eq (s : Text) : normalize s = ofComponents (components (beforeQuery s)) := by
  rw [normalize]
  split
  · next h => exact (ofComponents_components h).symm
  · rfl

/-- A normalised path is canonical. -/
theorem isCanonical_normalize (s : Text) : isCanonical (normalize s) = true := by
  rw [normalize_eq]
  exact isCanonical_ofComponents fun _ => mem_components

theorem components_normalize (s : Text) :
    components (normalize s) = components (beforeQuery s) := by
  rw [normalize_eq, components_ofComponents fun _ => mem_components]

theorem query_not_mem_normalize (s : Text) : '?' ∉ normalize s := by
  rw [normalize_eq, ofComponents, List.mem_cons]
  rintro (h | h)
  · exact absurd h (by decide)
  · rcases mem_of_mem_intercalate h with h | ⟨part, hpart, h⟩
    · exact absurd h (by decide)
    · have := List.mem_takeWhile_imp (mem_of_mem_components hpart h)
      simp at this

/-- The canonical path with the components before a query is the one that the path is made into, and
no other. It stays as it is when it is made canonical again, and it is put together of the
components also where the path was canonical already. -/
theorem canonical_iff_eq_normalize (s : Text) :
    (∀ p, isCanonical p = true ∧ components p = components (beforeQuery s) ↔ p = normalize s) ∧
      normalize (normalize s) = normalize s ∧
      normalize s = ofComponents (components (beforeQuery s)) := by
  refine ⟨fun p => ⟨?_, ?_⟩, ?_, normalize_eq s⟩
  · rintro ⟨hp, hcomponents⟩
    rw [normalize_eq, ← hcomponents, ofComponents_components hp]
  · rintro rfl
    exact ⟨isCanonical_normalize s, components_normalize s⟩
  · calc
      normalize (normalize s) = ofComponents (components (beforeQuery (normalize s))) :=
        normalize_eq _
      _ = ofComponents (components (normalize s)) := by
        rw [beforeQuery_of_plain (query_not_mem_normalize s)]
      _ = normalize s := ofComponents_components (isCanonical_normalize s)

/-- Only what stands before the query counts, and runs of slashes are one. -/
example : normalize "people//5/?page=2".toList = "/people/5".toList ∧
    normalize "/people/5".toList = "/people/5".toList ∧ normalize "//?a=/b".toList = ['/'] := by
  decide +kernel

end Routing.Path

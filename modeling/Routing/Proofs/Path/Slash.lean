import Routing.Proofs.Path

/-!
# Paths without encoded slashes

When no component of a path is decoded to a text with a slash, the decoded path holds no placeholder
for one. A text that is cut out of it has the same slashes once characters have been put back for
the placeholders.

* `Path.slash_not_mem_restore` — what is put back
* `Path.Clean`, `Path.clean_decode` — a decoded path without placeholders for slashes
* `Path.mem_of_mem_splitOn`, `Path.Clean.parts` — the components at its end
-/

namespace Routing.Path

/-! ## Texts in texts -/

/-- A text without the separator stands on one side of it. -/
theorem infix_append_cons {w s t : Text} {c : Char} (hc : c ∉ w) (h : w <:+: s ++ c :: t) :
    w <:+: s ∨ w <:+: t := by
  obtain ⟨x, y, hxy⟩ := h
  -- the text ends before the character, or begins after it, since it does not contain it
  rcases List.append_eq_append_iff.1 hxy with ⟨z, rfl, -⟩ | ⟨z, hz, hy⟩
  · exact .inl ⟨x, z, rfl⟩
  · cases z with
    | nil =>
      rw [List.append_nil] at hz
      exact .inl ⟨x, [], by rw [hz, List.append_nil]⟩
    | cons d z =>
      obtain ⟨rfl, rfl⟩ := List.cons.inj hy
      rcases List.append_eq_append_iff.1 hz with ⟨v, -, rfl⟩ | ⟨v, rfl, hv⟩
      · simp at hc
      · cases v with
        | nil =>
          rw [List.nil_append] at hv
          rw [← hv] at hc
          simp at hc
        | cons d v =>
          obtain ⟨rfl, rfl⟩ := List.cons.inj hv
          exact .inr ⟨v, y, rfl⟩

/-- A placeholder stands at the beginning or further on. -/
theorem slashMark_infix_cons {c : Char} {s : Text} (h : slashMark <:+: c :: s) :
    (∃ t, c :: s = slashMark ++ t) ∨ slashMark <:+: s := by
  rcases List.infix_cons_iff.1 h with ⟨t, ht⟩ | h
  · exact .inl ⟨t, ht.symm⟩
  · exact .inr h

/-- A placeholder for a slash comes from a slash. -/
theorem slash_mem_of_infix_mark {s : Text} (h : slashMark <:+: mark s) : '/' ∈ s := by
  induction s with
  | nil => cases List.infix_nil.1 h
  | cons c s ih =>
    rw [mark_cons] at h
    -- a placeholder for a percent sign has none for a slash in it, which is checked place by place
    split at h
    · refine List.mem_cons_of_mem c (ih ?_)
      have hmark : percentMark ++ mark s = '%' :: '2' :: '5' :: mark s := rfl
      rw [hmark] at h
      rcases slashMark_infix_cons h with ⟨t, ht⟩ | h
      · cases ht
      · rcases slashMark_infix_cons h with ⟨t, ht⟩ | h
        · cases ht
        · rcases slashMark_infix_cons h with ⟨t, ht⟩ | h
          · cases ht
          · exact h
    · split at h
      · next hc => exact hc ▸ List.mem_cons_self
      · next hne _ =>
        refine List.mem_cons_of_mem c (ih ?_)
        rcases slashMark_infix_cons h with ⟨t, ht⟩ | h
        · exact absurd (List.cons.inj ht).1 hne
        · exact h

/-! ## Characters put back -/

/-- A character that is put back comes from a placeholder. -/
theorem mem_restore {s : Text} {c : Char} (h : c ∈ restore s) :
    c ∈ s ∨ c = '%' ∨ c = '/' ∧ slashMark <:+: s := by
  have hlift {s t : Text} (ht : t <:+ s) (h : c ∈ t ∨ c = '%' ∨ c = '/' ∧ slashMark <:+: t) :
      c ∈ s ∨ c = '%' ∨ c = '/' ∧ slashMark <:+: s := by
    rcases h with h | h | ⟨h, hmark⟩
    · exact .inl (ht.subset h)
    · exact .inr (.inl h)
    · exact .inr (.inr ⟨h, hmark.trans ht.isInfix⟩)
  fun_induction restore s with
  | case1 s ih =>
    rcases List.mem_cons.1 h with rfl | h
    · exact .inr (.inr ⟨rfl, [], s, rfl⟩)
    · exact hlift ⟨['%', '2', 'F'], rfl⟩ (ih h)
  | case2 s ih =>
    rcases List.mem_cons.1 h with rfl | h
    · exact .inr (.inl rfl)
    · exact hlift ⟨['%', '2', '5'], rfl⟩ (ih h)
  | case3 d s _ _ ih =>
    rcases List.mem_cons.1 h with rfl | h
    · exact .inl List.mem_cons_self
    · exact hlift ⟨[d], rfl⟩ (ih h)
  | case4 => cases h

/-- A slash is put back only for its placeholder. -/
theorem slash_not_mem_restore {s : Text} (hslash : '/' ∉ s) (hmark : ¬ slashMark <:+: s) :
    '/' ∉ restore s := by
  intro h
  rcases mem_restore h with h | h | ⟨-, h⟩
  · exact hslash h
  · exact absurd h (by decide)
  · exact hmark h

theorem restore_ne_nil {s : Text} (hs : s ≠ []) : restore s ≠ [] := by
  fun_cases restore s with
  | case1 | case2 | case3 => exact List.cons_ne_nil _ _
  | case4 => exact absurd rfl hs

theorem restore_of_plain {s : Text} (hs : '%' ∉ s) : restore s = s := by
  induction s with
  | nil => rfl
  | cons c s ih =>
    obtain ⟨hc, hs⟩ := not_or.1 (mt List.mem_cons.2 hs)
    rw [restore, ih hs]
    · exact fun _ h _ => hc h.symm
    · exact fun _ h _ => hc h.symm

/-- Where no slash and no percent sign is put back, there was no placeholder. -/
theorem restore_eq_self {s : Text} (hslash : '/' ∉ restore s) (hpercent : '%' ∉ restore s) :
    restore s = s := by
  fun_induction restore s with
  | case1 | case2 => simp at hslash hpercent
  | case3 c s _ _ ih =>
    rw [ih (fun h => hslash (List.mem_cons_of_mem c h)) fun h => hpercent (List.mem_cons_of_mem c h)]
  | case4 => rfl

/-! ## Decoded paths -/

/-- A decoded path without placeholders for slashes. -/
def Clean (s : Text) : Prop :=
  s = ['/'] ∨ ∃ parts, parts ≠ [] ∧ s = parts.flatMap ('/' :: ·) ∧
    ∀ part ∈ parts, part ≠ [] ∧ '/' ∉ part ∧ ¬ slashMark <:+: part

/-- A text that is not empty has bytes. -/
theorem bytes_ne_nil {s : Text} (hs : s ≠ []) : Percent.bytes s ≠ [] := by
  have hencode (c : Char) (rest : List UInt8) : Utf8.encode c ++ rest ≠ [] := by
    intro h
    have := Utf8.decode_encode_append c rest
    rw [h, Utf8.decode] at this
    cases this
  fun_cases Percent.bytes s with
  | case1 => exact List.cons_ne_nil _ _
  | case2 | case3 => exact hencode _ _
  | case4 => exact absurd rfl hs

theorem decode_ne_nil {s : Text} (hs : s ≠ []) : Percent.decode s ≠ [] := by
  rw [Percent.decode]
  cases hbytes : Percent.bytes s with
  | nil => exact absurd hbytes (bytes_ne_nil hs)
  | cons b bs =>
    rw [Utf8.decode]
    exact List.cons_ne_nil _ _

/-- A component whose text has no slash is decoded to one without placeholders for slashes. -/
theorem clean_decodeComponent {part : Text} (hne : part ≠ []) (hslash : '/' ∉ part)
    (hdecode : '/' ∉ Percent.decode part) :
    decodeComponent part ≠ [] ∧ '/' ∉ decodeComponent part ∧
      ¬ slashMark <:+: decodeComponent part := by
  rw [decodeComponent]
  split
  · exact ⟨mark_ne_nil (decode_ne_nil hne), slash_not_mem_mark _,
      fun h => hdecode (slash_mem_of_infix_mark h)⟩
  · next hpercent =>
    refine ⟨hne, hslash, fun h => hpercent (h.subset ?_)⟩
    decide

/-- The decoded path of one whose components have no encoded slashes. -/
theorem clean_decode {p : Text}
    (hp : ∀ part ∈ components (beforeQuery p), '/' ∉ Percent.decode part) :
    Clean (decode (normalize p)) := by
  rw [decode_normalize]
  split
  · exact .inl rfl
  · next hne =>
    refine .inr ⟨(components (beforeQuery p)).map decodeComponent, by simpa using hne, ?_, ?_⟩
    · rw [List.flatMap_map]
    · intro part hpart
      obtain ⟨s, hs, rfl⟩ := List.mem_map.1 hpart
      exact clean_decodeComponent (mem_components hs).1 (mem_components hs).2 (hp s hs)

/-- A clean path has no placeholder for a slash. -/
theorem Clean.not_infix {s : Text} (h : Clean s) : ¬ slashMark <:+: s := by
  rcases h with rfl | ⟨parts, -, rfl, hparts⟩
  · intro h
    exact absurd (h.subset (show '%' ∈ slashMark by decide)) (by decide)
  · induction parts with
    | nil =>
      intro h
      cases List.infix_nil.1 h
    | cons part parts ih =>
      obtain ⟨⟨-, -, hpart⟩, hparts⟩ := List.forall_mem_cons.1 hparts
      have hmark : '/' ∉ slashMark := by decide
      intro h
      rw [List.flatMap_cons, List.cons_append, ← List.nil_append ('/' :: _)] at h
      rcases infix_append_cons hmark h with h | h
      · cases List.infix_nil.1 h
      -- a placeholder would have to stand between two slashes
      · cases parts with
        | nil =>
          rw [List.flatMap_nil, List.append_nil] at h
          exact hpart h
        | cons next parts =>
          rcases infix_append_cons hmark h with h | h
          · exact hpart h
          · exact ih hparts (List.infix_cons h)

/-- The components after a slash. -/
theorem mem_of_mem_splitOn {parts : List Text} {pre rest part : Text} (hne : parts ≠ [])
    (hparts : ∀ part ∈ parts, '/' ∉ part) (h : ofComponents parts = pre ++ '/' :: rest)
    (hpart : part ∈ rest.splitOn '/') : part ∈ parts := by
  have hsplit : (ofComponents parts).splitOn '/' = [] :: parts := by
    have := List.splitOn_append_cons_self (a := '/') [] (['/'].intercalate parts)
    rwa [List.splitOn_intercalate '/' hparts hne] at this
  rw [h, List.splitOn_append_cons_self] at hsplit
  cases hpre : pre.splitOn '/' with
  | nil => exact absurd hpre (List.splitOn_ne_nil _ _)
  | cons p ps =>
    rw [hpre, List.cons_append] at hsplit
    exact (List.cons.inj hsplit).2 ▸ List.mem_append_right ps hpart

/-- The components at the end of a clean path are clean. -/
theorem Clean.parts {s pre rest : Text} (h : Clean s) (hs : s = pre ++ '/' :: rest)
    (hrest : rest ≠ []) :
    ∀ part ∈ rest.splitOn '/', part ≠ [] ∧ '/' ∉ part ∧ ¬ slashMark <:+: part := by
  rcases h with rfl | ⟨parts, hne, rfl, hparts⟩
  · have hlen := congrArg List.length hs
    have := List.length_pos_iff.2 hrest
    simp at hlen
    omega
  · rw [← ofComponents_eq_flatMap hne] at hs
    exact fun part hpart =>
      hparts part (mem_of_mem_splitOn hne (fun part hpart => (hparts part hpart).2.1) hs hpart)

end Routing.Path

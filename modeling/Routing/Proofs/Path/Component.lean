import Routing.Proofs.Path.Safe
import Routing.Proofs.Path.Slash

/-!
# One component of a path

A text that becomes a component is escaped, and a component that is read is decoded. Neither loses
anything. What is escaped can stand between two slashes and is decoded to the text. What is decoded
stays one component, from which the decoded text comes back, because its percent signs begin
placeholders and nothing else.

* `Path.EachPercent` — every percent sign of a text begins one of certain forms
* `Path.IsPlaceholder`, `Path.IsEscape` — the forms in decoded and in escaped components
* `Path.mark_eq_replace` — placeholders put in one after the other
* `Path.decodeComponent_eq_self_iff`, `Path.decodeComponent_decodeComponent` — the components that
  decoding leaves alone
* `Path.decodeComponent_lossless` — what decoding a component keeps
* `Path.escape_eq_flatMap` — texts escaped byte by byte
* `Path.escape_reversible` — what escaping a text gives
-/

namespace Routing.Path

variable {forms : Text → Prop} {s t : Text}

/-! ## Percent signs -/

/-- Every percent sign of the text begins one of the forms. -/
def EachPercent (forms : Text → Prop) (s : Text) : Prop :=
  ∀ rest, '%' :: rest <:+ s → ∃ form, forms form ∧ form <+: '%' :: rest

/-- One of the two texts that stand for a character in a decoded component. -/
def IsPlaceholder (form : Text) : Prop :=
  form = percentMark ∨ form = slashMark

/-- A percent sign and two hexadecimal digits. -/
def IsEscape (form : Text) : Prop :=
  ∃ a b, form = ['%', a, b] ∧ (Numeral.hexValue? a).isSome = true ∧
    (Numeral.hexValue? b).isSome = true

/-- Without a percent sign there is nothing to check. -/
theorem eachPercent_of_not_mem (h : '%' ∉ s) : EachPercent forms s :=
  fun _ hrest => absurd (hrest.subset List.mem_cons_self) h

/-- One form, with a percent sign at its beginning alone. -/
theorem eachPercent_of_form (hs : forms ('%' :: s)) (h : '%' ∉ s) :
    EachPercent forms ('%' :: s) := by
  intro rest hrest
  rcases List.suffix_cons_iff.1 hrest with heq | hrest
  · exact ⟨_, hs, heq ▸ List.prefix_rfl⟩
  · exact absurd (hrest.subset List.mem_cons_self) h

theorem eachPercent_singleton {c : Char} (hc : c ≠ '%') : EachPercent forms [c] :=
  eachPercent_of_not_mem (mt List.mem_singleton.1 (Ne.symm hc))

theorem EachPercent.of_suffix (h : EachPercent forms s) (ht : t <:+ s) : EachPercent forms t :=
  fun rest hrest => h rest (hrest.trans ht)

/-- Two texts one after the other. -/
theorem EachPercent.append (h : EachPercent forms s) (ht : EachPercent forms t) :
    EachPercent forms (s ++ t) := by
  induction s with
  | nil => exact ht
  | cons c s ih =>
    intro rest hrest
    rcases List.suffix_cons_iff.1 hrest with heq | hrest
    · obtain ⟨rfl, rfl⟩ := List.cons.inj heq
      obtain ⟨form, hform, hbegins⟩ := h s List.suffix_rfl
      exact ⟨form, hform, hbegins.trans (List.prefix_append _ t)⟩
    · exact ih (h.of_suffix (List.suffix_cons c s)) rest hrest

theorem EachPercent.flatMap {f : Char → Text} (h : ∀ c, EachPercent forms (f c)) (s : Text) :
    EachPercent forms (s.flatMap f) := by
  induction s with
  | nil => exact eachPercent_of_not_mem List.not_mem_nil
  | cons c s ih => exact (h c).append ih

/-! ## Placeholders -/

/-- The text with `t` in place of every `c`. -/
def replace (c : Char) (t s : Text) : Text :=
  s.flatMap fun d => if d = c then t else [d]

/-- Placeholders can be put in for one character after the other, beginning with the percent sign:
those for slashes bring percent signs of their own. -/
theorem mark_eq_replace (s : Text) :
    mark s = replace '/' slashMark (replace '%' percentMark s) := by
  rw [replace, replace, List.flatMap_assoc, mark]
  apply List.flatMap_congr
  intro c _
  split
  · rfl
  · rw [List.flatMap_singleton]

example : replace '%' percentMark (replace '/' slashMark ['/']) = "%252F".toList := by decide

/-- Different texts are marked differently. -/
theorem mark_injective : Function.Injective mark :=
  Function.LeftInverse.injective restore_mark

/-- A placeholder is the escape of the character for which it stands. -/
theorem encodes_mark (t : Text) : Encodes (mark t) t := by
  refine .flatMap (fun c => ?_) t
  split
  · next hc => exact hc ▸ encodes_groups '%'
  · split
    · next hc => exact hc ▸ encodes_groups '/'
    · next hc _ => exact encodes_singleton hc

/-- Every percent sign of a marked text begins a placeholder. -/
theorem eachPercent_mark (s : Text) : EachPercent IsPlaceholder (mark s) := by
  refine .flatMap (fun c => ?_) s
  split
  · exact eachPercent_of_form (.inl rfl) (by decide)
  · split
    · exact eachPercent_of_form (.inr rfl) (by decide)
    · next hc _ => exact eachPercent_singleton hc

/-- Placeholders come back for the characters that were put in their place. -/
theorem mark_restore (hslash : '/' ∉ s) (h : EachPercent IsPlaceholder s) :
    mark (restore s) = s := by
  -- by the reading; what is no placeholder has no percent sign, by the assumption
  fun_induction restore s with
  | case1 s ih =>
    have hs : s <:+ '%' :: '2' :: 'F' :: s := ⟨slashMark, rfl⟩
    rw [mark_cons, ih (mt (hs.subset ·) hslash) (h.of_suffix hs)]
    rfl
  | case2 s ih =>
    have hs : s <:+ '%' :: '2' :: '5' :: s := ⟨percentMark, rfl⟩
    rw [mark_cons, ih (mt (hs.subset ·) hslash) (h.of_suffix hs)]
    rfl
  | case3 c s hslashMark hpercentMark ih =>
    obtain ⟨hne, hs⟩ := not_or.1 (mt List.mem_cons.2 hslash)
    have hc : c ≠ '%' := by
      rintro rfl
      obtain ⟨form, rfl | rfl, t, ht⟩ := h s List.suffix_rfl
      · exact hpercentMark t rfl (List.cons.inj ht).2.symm
      · exact hslashMark t rfl (List.cons.inj ht).2.symm
    rw [mark_cons, if_neg hc, if_neg (Ne.symm hne), ih hs (h.of_suffix (List.suffix_cons c s))]
    rfl
  | case4 => rfl

/-! ## Decoded components -/

/-- A decoded component with its placeholders put back is the decoded text. -/
theorem restore_decodeComponent (s : Text) : restore (decodeComponent s) = Percent.decode s := by
  rw [decodeComponent]
  split
  · exact restore_mark _
  · next h => rw [restore_of_plain h, decode_of_plain h]

/-- Only a component without percent signs, which is left alone, can hold a slash afterwards. -/
theorem slash_mem_decodeComponent : '/' ∈ decodeComponent s ↔ '/' ∈ s ∧ '%' ∉ s := by
  rw [decodeComponent]
  split
  · next h => exact iff_of_false (slash_not_mem_mark _) fun hs => hs.2 h
  · next h => exact ⟨fun hs => ⟨hs, h⟩, And.left⟩

/-- Every percent sign of a decoded component begins a placeholder. -/
theorem eachPercent_decodeComponent (s : Text) :
    EachPercent IsPlaceholder (decodeComponent s) := by
  rw [decodeComponent]
  split
  · exact eachPercent_mark _
  · next h => exact eachPercent_of_not_mem h

theorem decodeComponent_eq_iff (hs : '/' ∉ s) (ht : '/' ∉ t) :
    decodeComponent s = decodeComponent t ↔ Percent.decode s = Percent.decode t := by
  rw [decodeComponent_eq_mark hs, decodeComponent_eq_mark ht, mark_injective.eq_iff]

/-- Decoding leaves a component alone exactly when its percent signs begin placeholders. -/
theorem decodeComponent_eq_self_iff (hs : '/' ∉ s) :
    decodeComponent s = s ↔ EachPercent IsPlaceholder s := by
  constructor
  · intro h
    exact h ▸ eachPercent_decodeComponent s
  · intro h
    have hdecoded := decodeComponent_of_encodes (encodes_mark (restore s)) (slash_not_mem_mark _)
    rwa [mark_restore hs h] at hdecoded

/-- It does not matter how often a component is decoded. -/
theorem decodeComponent_decodeComponent (s : Text) :
    decodeComponent (decodeComponent s) = decodeComponent s := by
  by_cases h : '/' ∈ decodeComponent s
  · have hself : decodeComponent s = s := if_neg (slash_mem_decodeComponent.1 h).2
    rw [hself, hself]
  · exact (decodeComponent_eq_self_iff h).2 (eachPercent_decodeComponent s)

/-- The decoded text comes back from a decoded component. Decoding brings no slash, and every
percent sign that it leaves begins a placeholder; so two components without slashes are decoded to
the same one exactly when they stand for the same text. -/
theorem decodeComponent_lossless :
    (∀ s : Text, restore (decodeComponent s) = Percent.decode s ∧
      ('/' ∈ decodeComponent s ↔ '/' ∈ s ∧ '%' ∉ s) ∧
      EachPercent IsPlaceholder (decodeComponent s)) ∧
    ∀ s t : Text, '/' ∉ s → '/' ∉ t →
      (decodeComponent s = decodeComponent t ↔ Percent.decode s = Percent.decode t) :=
  ⟨fun s => ⟨restore_decodeComponent s, slash_mem_decodeComponent, eachPercent_decodeComponent s⟩,
    fun _ _ hs ht => decodeComponent_eq_iff hs ht⟩

/-- Escapes may be written with digits of either case, and for characters that need none. What is
escaped twice is decoded once. -/
theorem decodeComponent_lossless_rate :
    '/' ∉ "50%25%2Fx%252F".toList ∧ '/' ∉ "%350%25%2fx%252F".toList ∧
      Percent.decode "50%25%2Fx%252F".toList = "50%/x%2F".toList ∧
      decodeComponent "50%25%2Fx%252F".toList = decodeComponent "%350%25%2fx%252F".toList ∧
      restore (decodeComponent "50%25%2Fx%252F".toList) = "50%/x%2F".toList := by
  have hdecode : Percent.decode "50%25%2Fx%252F".toList = "50%/x%2F".toList := by decide +kernel
  have hdecode' : Percent.decode "%350%25%2fx%252F".toList = "50%/x%2F".toList := by
    decide +kernel
  refine ⟨by decide, by decide, hdecode, ?_, ?_⟩
  · exact (decodeComponent_lossless.2 _ _ (by decide) (by decide)).2 (hdecode.trans hdecode'.symm)
  · rw [(decodeComponent_lossless.1 _).1, hdecode]

/-! ## Escaped texts -/

/-- What a byte of a text is written as: the character that stands for itself, or a group. -/
def escapeByte (b : UInt8) : Text :=
  if isPlain (Char.ofNat b.toNat) then [Char.ofNat b.toNat] else Percent.group b

/-- A character is escaped byte by byte. -/
theorem flatMap_escapeByte (c : Char) :
    (Utf8.encode c).flatMap escapeByte = if isPlain c then [c] else Percent.groups c := by
  -- a plain character is one byte, and the bytes of any other are not plain
  split
  · next hc =>
    have hlt : c.toNat < 0x80 := toNat_lt_of_isPchar (isPlain_eq_isPchar c ▸ hc)
    rw [Utf8.encode, Utf8.encodeCode, if_pos hlt, List.flatMap_singleton, escapeByte,
      Utf8.toNat_byte (by omega), Char.ofNat_toNat, if_pos hc]
  · next hc =>
    rw [Percent.groups]
    apply List.flatMap_congr
    intro b hb
    rw [escapeByte, if_neg]
    rcases Utf8.toNat_of_mem_encode hb with hbyte | hbyte
    · rwa [hbyte, Char.ofNat_toNat]
    · have hall : ∀ n < 256, 0x80 ≤ n → isPlain (Char.ofNat n) = false := by decide +kernel
      exact Bool.eq_false_iff.1 (hall b.toNat b.toNat_lt hbyte)

/-- A text is escaped byte by byte. -/
theorem escape_eq_flatMap (s : Text) : escape s = (Utf8.encodeText s).flatMap escapeByte := by
  rw [Utf8.encodeText, List.flatMap_assoc, escape, Percent.encode]
  exact List.flatMap_congr fun c _ => (flatMap_escapeByte c).symm

/-- Every percent sign of a safe path begins a complete escape. -/
theorem Safe.eachPercent (h : Safe s) : EachPercent IsEscape s := by
  have hne {c : Char} (hc : isPchar c = true) : c ≠ '%' := by
    rintro rfl
    exact absurd hc (by decide)
  induction h with
  | nil => exact eachPercent_of_not_mem List.not_mem_nil
  | slash _ ih => exact (eachPercent_singleton (by decide)).append ih
  | char hc _ ih => exact (eachPercent_singleton (hne hc)).append ih
  | escape ha hb _ ih =>
    refine (eachPercent_of_form ⟨_, _, rfl, ha, hb⟩ ?_).append ih
    rw [List.mem_cons, List.mem_singleton, not_or]
    exact ⟨(hne (isPchar_of_hexValue? ha)).symm, (hne (isPchar_of_hexValue? hb)).symm⟩

/-- A text that can stand between two slashes, as RFC 3986 has it. -/
structure IsSegment (s : Text) : Prop where
  chars : ∀ c ∈ s, isPchar c = true ∨ c = '%'
  escapes : EachPercent IsEscape s

theorem Safe.isSegment (h : Safe s) (hslash : '/' ∉ s) : IsSegment s where
  chars := by
    intro c hc
    rcases h.mem hc with hpchar | rfl | rfl
    · exact .inl hpchar
    · exact absurd hc hslash
    · exact .inr rfl
  escapes := h.eachPercent

theorem isSegment_escape (s : Text) : IsSegment (escape s) :=
  (safe_escape s).isSegment (slash_not_mem_escape s)

theorem escape_eq_nil_iff : escape s = [] ↔ s = [] :=
  ⟨fun h => of_not_not fun hs => escape_ne_nil hs h, by rintro rfl; rfl⟩

theorem restore_decodeComponent_escape (s : Text) : restore (decodeComponent (escape s)) = s := by
  rw [restore_decodeComponent, decode_of_encodes (encodes_escape s)]

/-! ## Parts between slashes -/

theorem length_splitOn (c : Char) (s : Text) : (s.splitOn c).length = s.count c + 1 := by
  induction s with
  | nil => rfl
  | cons d s ih =>
    rw [List.splitOn_cons_eq_if_modifyHead, List.count_cons]
    split
    · rw [List.length_cons, ih]
    · rw [List.length_modifyHead, ih]

/-- The parts of an escaped path are escaped one by one. -/
theorem splitOn_escapeParts (s : Text) :
    (escapeParts s).splitOn '/' = (s.splitOn '/').map escape := by
  rw [escapeParts, List.splitOn_intercalate]
  · intro part hpart
    obtain ⟨t, -, rfl⟩ := List.mem_map.1 hpart
    exact slash_not_mem_escape t
  · exact mt List.map_eq_nil_iff.1 (List.splitOn_ne_nil _ _)

theorem count_escapeParts (s : Text) : (escapeParts s).count '/' = s.count '/' := by
  have hlength := length_splitOn '/' (escapeParts s)
  rw [splitOn_escapeParts, List.length_map, length_splitOn] at hlength
  omega

/-- An escaped text holds nothing but characters of segments and complete escapes, and so no
separator, blank, control or non-ASCII character. Only the empty text is escaped to an empty one,
and reading what is escaped gives the text. A text of several parts keeps its slashes, between which
the parts are escaped. -/
theorem escape_reversible (s : Text) :
    IsSegment (escape s) ∧
      (∀ c ∈ escape s, 0x20 < c.toNat ∧ c.toNat < 0x7F ∧ c ≠ '/' ∧ c ≠ '?' ∧ c ≠ '#') ∧
      (escape s = [] ↔ s = []) ∧
      restore (decodeComponent (escape s)) = s ∧
      (escapeParts s).count '/' = s.count '/' ∧
      (escapeParts s).splitOn '/' = (s.splitOn '/').map escape := by
  refine ⟨isSegment_escape s, ?_, escape_eq_nil_iff, restore_decodeComponent_escape s,
    count_escapeParts s, splitOn_escapeParts s⟩
  intro c hc
  obtain ⟨hlow, hhigh, hquery, hanchor⟩ := (safe_escape s).printable hc
  exact ⟨hlow, hhigh, fun h => slash_not_mem_escape s (h ▸ hc), hquery, hanchor⟩

/-- A letter of two bytes, a slash and a percent sign are written as escapes. -/
theorem escape_reversible_note :
    escape "é/50%".toList = "%C3%A9%2F50%25".toList ∧
      ('A' ∈ escape "é/50%".toList ∧ 'A' ≠ '/' ∧ 'A' ≠ '?') ∧
      restore (decodeComponent "%C3%A9%2F50%25".toList) = "é/50%".toList ∧
      (escapeParts "é/50%".toList).splitOn '/' = ["%C3%A9".toList, "50%25".toList] := by
  obtain ⟨-, hprintable, -, hback, -, hparts⟩ := escape_reversible "é/50%".toList
  have hescape : escape "é/50%".toList = "%C3%A9%2F50%25".toList := by decide +kernel
  have hmem : 'A' ∈ escape "é/50%".toList := by rw [hescape]; decide
  obtain ⟨-, -, hslash, hquery, -⟩ := hprintable 'A' hmem
  refine ⟨hescape, ⟨hmem, hslash, hquery⟩, ?_, ?_⟩
  · rw [← hescape, hback]
  · rw [hparts]
    decide +kernel

end Routing.Path

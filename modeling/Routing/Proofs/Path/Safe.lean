import Routing.Proofs.Query
import Routing.Url

/-!
# Safe paths

A path that holds nothing but slashes, characters that RFC 3986 allows inside a path segment and
complete escapes ends where it seems to end: no part of it can be taken for a query or an anchor.

* `Path.isPchar` — the characters that may stand in a segment
* `Path.Safe` — paths of slashes, such characters and escapes
* `Path.safe_escape`, `Path.safe_escapeParts` — an escaped text is safe
* `Url.split` — the path, the query and the anchor of a URL
* `Url.split_safe` — a safe path is told apart from what follows it
-/

namespace Routing

namespace Path

/-! ## Characters -/

/-- RFC 3986 `pchar` but for escapes: letters, digits, the other unreserved characters,
sub-delimiters, the colon and the at sign. -/
def isPchar (c : Char) : Bool :=
  ('a' ≤ c && c ≤ 'z') || ('A' ≤ c && c ≤ 'Z') || ('0' ≤ c && c ≤ '9') ||
    "-._~!$&\x27()*+,;=:@".toList.contains c

/-- The characters that may stand in a component are those of one byte. -/
theorem toNat_lt_of_isPchar {c : Char} (h : isPchar c = true) : c.toNat < 128 := by
  have hmarks : ("-._~!$&\x27()*+,;=:@".toList.all fun c => c.toNat < 128) = true := by decide
  simp only [isPchar, Bool.or_eq_true, Bool.and_eq_true, decide_eq_true_eq, Char.le_def,
    UInt32.le_iff_toNat_le] at h
  have hz : 'z'.val.toNat = 122 := rfl
  have hZ : 'Z'.val.toNat = 90 := rfl
  have h9 : '9'.val.toNat = 57 := rfl
  have hval : c.toNat = c.val.toNat := rfl
  rcases h with ((h | h) | h) | h
  · omega
  · omega
  · omega
  · exact of_decide_eq_true (List.all_eq_true.1 hmarks c (List.contains_iff_mem.1 h))

/-- The characters that are not escaped are those that RFC 3986 allows in a segment. -/
theorem isPlain_eq_isPchar (c : Char) : isPlain c = isPchar c := by
  by_cases hlt : c.toNat < 128
  · exact Utf8.forall_ascii (P := fun c => isPlain c = isPchar c) (by decide +kernel) hlt
  · have hplain : isPlain c = false := by
      rw [isPlain, Bool.and_eq_false_iff, Bool.and_eq_false_iff, decide_eq_false_iff_not,
        decide_eq_false_iff_not]
      exact .inl (.inr (by omega))
    have hpchar : isPchar c ≠ true := fun h => hlt (toNat_lt_of_isPchar h)
    rw [hplain]
    exact (Bool.eq_false_iff.2 hpchar).symm

/-! ## Paths -/

/-- Slashes, characters of segments and complete escapes. -/
inductive Safe : Text → Prop where
  | nil : Safe []
  | slash {s : Text} (h : Safe s) : Safe ('/' :: s)
  | char {c : Char} {s : Text} (hc : isPchar c = true) (h : Safe s) : Safe (c :: s)
  | escape {a b : Char} {s : Text} (ha : (Numeral.hexValue? a).isSome = true)
    (hb : (Numeral.hexValue? b).isSome = true) (h : Safe s) : Safe ('%' :: a :: b :: s)

theorem Safe.append {s t : Text} (h : Safe s) (ht : Safe t) : Safe (s ++ t) := by
  induction h with
  | nil => exact ht
  | slash _ ih => exact .slash ih
  | char hc _ ih => exact .char hc ih
  | escape ha hb _ ih => exact .escape ha hb ih

theorem Safe.flatMap {α : Type} {l : List α} {f : α → Text} (h : ∀ a ∈ l, Safe (f a)) :
    Safe (l.flatMap f) := by
  induction l with
  | nil => exact .nil
  | cons a l ih =>
    obtain ⟨ha, hl⟩ := List.forall_mem_cons.1 h
    exact ha.append (ih hl)

/-- Safe parts joined by slashes. -/
theorem Safe.intercalate {parts : List Text} (h : ∀ part ∈ parts, Safe part) :
    Safe (['/'].intercalate parts) := by
  induction parts with
  | nil => exact .nil
  | cons part parts ih =>
    obtain ⟨hpart, hparts⟩ := List.forall_mem_cons.1 h
    cases parts with
    | nil =>
      rw [List.intercalate_singleton]
      exact hpart
    | cons part' parts =>
      rw [List.intercalate_cons_cons]
      exact (hpart.append (.slash .nil)).append (ih hparts)

/-- A text of slashes and characters of segments is safe as it is. -/
theorem safe_of_forall {s : Text} (h : ∀ c ∈ s, isPchar c = true ∨ c = '/') : Safe s := by
  induction s with
  | nil => exact .nil
  | cons c s ih =>
    obtain ⟨hc, hs⟩ := List.forall_mem_cons.1 h
    rcases hc with hc | rfl
    · exact .char hc (ih hs)
    · exact .slash (ih hs)

/-- A hexadecimal digit may stand in a component. -/
theorem isPchar_of_hexValue? {c : Char} (h : (Numeral.hexValue? c).isSome = true) :
    isPchar c = true := by
  have hval : c.toNat = c.val.toNat := rfl
  have h0 : '0'.val.toNat = 48 := rfl
  have h9 : '9'.val.toNat = 57 := rfl
  simp only [isPchar, Bool.or_eq_true, Bool.and_eq_true, decide_eq_true_eq, Char.le_def,
    UInt32.le_iff_toNat_le]
  rw [Numeral.hexValue?] at h
  split at h
  · next hdigit =>
    obtain ⟨hlo, hhi⟩ := Char.isDigit_iff_toNat.1 hdigit
    change 48 ≤ c.toNat at hlo
    change c.toNat ≤ 57 at hhi
    omega
  · split at h
    · next hlower =>
      simp only [Char.le_def, UInt32.le_iff_toNat_le] at hlower
      have hf : 'f'.val.toNat = 102 := rfl
      have hz : 'z'.val.toNat = 122 := rfl
      omega
    · split at h
      · next hupper =>
        simp only [Char.le_def, UInt32.le_iff_toNat_le] at hupper
        have hF : 'F'.val.toNat = 70 := rfl
        have hZ : 'Z'.val.toNat = 90 := rfl
        omega
      · cases h

/-- What stands in a safe path. -/
theorem Safe.mem {s : Text} (h : Safe s) {c : Char} (hc : c ∈ s) :
    isPchar c = true ∨ c = '/' ∨ c = '%' := by
  -- on how the text is safe, one character or group at a time
  induction h with
  | nil => cases hc
  | slash _ ih =>
    rcases List.mem_cons.1 hc with rfl | hc
    · exact .inr (.inl rfl)
    · exact ih hc
  | char hd _ ih =>
    rcases List.mem_cons.1 hc with rfl | hc
    · exact .inl hd
    · exact ih hc
  | escape ha hb _ ih =>
    rcases List.mem_cons.1 hc with rfl | hc
    · exact .inr (.inr rfl)
    · rcases List.mem_cons.1 hc with rfl | hc
      · exact .inl (isPchar_of_hexValue? ha)
      · rcases List.mem_cons.1 hc with rfl | hc
        · exact .inl (isPchar_of_hexValue? hb)
        · exact ih hc

/-- A safe path holds neither a question mark nor a number sign, and no blank, control or non-ASCII
character. -/
theorem Safe.printable {s : Text} (h : Safe s) {c : Char} (hc : c ∈ s) :
    0x20 < c.toNat ∧ c.toNat < 0x7F ∧ c ≠ '?' ∧ c ≠ '#' := by
  rcases h.mem hc with hpchar | rfl | rfl
  · exact Utf8.forall_ascii
      (P := fun c => isPchar c = true → 0x20 < c.toNat ∧ c.toNat < 0x7F ∧ c ≠ '?' ∧ c ≠ '#')
      (by decide +kernel) (toNat_lt_of_isPchar hpchar) hpchar
  · decide
  · decide

/-! ## Escaped texts -/

theorem safe_group (b : UInt8) : Safe (Percent.group b) := by
  have hlt : b.toNat < 256 := b.toNat_lt
  have hdigit (n : Nat) (h : n < 16) : (Numeral.hexValue? (Percent.digit n)).isSome = true := by
    rw [Percent.hexValue_digit h]
    rfl
  exact .escape (hdigit _ (by omega)) (hdigit _ (by omega)) .nil

theorem safe_escape (s : Text) : Safe (escape s) := by
  apply Safe.flatMap
  intro c _
  split
  · next hc =>
    rw [isPlain_eq_isPchar] at hc
    exact .char hc .nil
  · exact .flatMap fun b _ => safe_group b

theorem safe_escapeParts (s : Text) : Safe (escapeParts s) := by
  apply Safe.intercalate
  intro part hpart
  obtain ⟨t, -, rfl⟩ := List.mem_map.1 hpart
  exact safe_escape t

end Path

/-! ## Query strings -/

namespace Query

/-- A query string has no number sign, so that an anchor can follow it. -/
theorem mark_not_mem_ofParams (params : Params) : '#' ∉ ofParams params := by
  obtain ⟨blocks, -, -, hparams⟩ := exists_ofParams params
  rw [hparams]
  intro h
  rcases Path.mem_of_mem_intercalate h with h | ⟨part, hpart, h⟩
  · exact absurd h (by decide)
  · obtain ⟨p, -, rfl⟩ := List.mem_map.1 hpart
    exact (mem_pairText h).elim (by decide) (by decide)

end Query

/-! ## URLs -/

namespace Url

/-- What stands before the first separator, and what after it. -/
def cutAt (sep : Char) (s : Text) : Text × Option Text :=
  match Text.cut? sep s with
  | some (before, after) => (before, some after)
  | none => (s, none)

/-- The parts of a URL without an origin. -/
structure Split where
  path : Text
  query : Option Text
  anchor : Option Text
deriving DecidableEq

/-- The anchor follows the first number sign, and the query the first question mark before that. -/
def split (url : Text) : Split :=
  let (front, anchor) := cutAt '#' url
  let (path, query) := cutAt '?' front
  ⟨path, query, anchor⟩

/-- A text and what may follow it after a separator are told apart. -/
theorem cutAt_elim {sep : Char} {s : Text} (h : sep ∉ s) (after : Option Text) :
    cutAt sep (s ++ after.elim [] (sep :: ·)) = (s, after) := by
  cases after with
  | none => rw [cutAt, Option.elim, List.append_nil, Text.cut?_of_not_mem h]
  | some t => rw [cutAt, Option.elim, Text.cut?_append h]

/-- The query of parameters left over; none when nothing in them has a path form. -/
def query? (extras : Params) : Option Text :=
  if (Query.ofParams extras).isEmpty then none else some (Query.ofParams extras)

theorem query_eq (extras : Params) : query extras = (query? extras).elim [] ('?' :: ·) := by
  rw [query, query?]
  cases Query.ofParams extras <;> rfl

/-- A safe path, a query and an anchor are told apart. -/
theorem split_safe {path : Text} (h : Path.Safe path) (extras : Params) (anchor : Option Text) :
    split (path ++ query extras ++ anchor.elim [] ('#' :: ·)) =
      ⟨path, query? extras, anchor⟩ := by
  have hpath : '?' ∉ path := fun hc => (h.printable hc).2.2.1 rfl
  have hfront : '#' ∉ path ++ query extras := by
    rw [List.mem_append, not_or, query]
    refine ⟨fun hc => (h.printable hc).2.2.2 rfl, ?_⟩
    have := Query.mark_not_mem_ofParams extras
    split
    · simp
    · simpa using this
  rw [split, cutAt_elim hfront, query_eq]
  simp only
  rw [cutAt_elim hpath]

end Url

end Routing

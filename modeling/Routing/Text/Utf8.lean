import Routing.Text

/-!
# UTF-8

Bytes of a text, and the text of bytes. Encoding is total and exact; decoding is **lossy**: bytes
that begin no character are replaced, and each replacement stands for the longest run of bytes that
could still have become one.

* `Utf8.encode` — the one to four bytes of a character;
* `Utf8.Lead` — what a first byte announces: how many bytes follow and the range of the next;
* `Utf8.decode` — the text of any byte list, with `U+FFFD` for each ill-formed run.
-/

namespace Routing.Utf8

/-- The byte whose value is `n` modulo 256. -/
abbrev byte (n : Nat) : UInt8 := UInt8.ofNat n

/-- The bytes of a code point: one below `0x80`, two below `0x800`, three below `0x10000`, four
otherwise. Every byte after the first is `10xxxxxx`. -/
def encodeCode (n : Nat) : List UInt8 :=
  if n < 0x80 then [byte n]
  else if n < 0x800 then [byte (0xC0 + n / 64), byte (0x80 + n % 64)]
  else if n < 0x10000 then
    [byte (0xE0 + n / 4096), byte (0x80 + n / 64 % 64), byte (0x80 + n % 64)]
  else
    [byte (0xF0 + n / 262144), byte (0x80 + n / 4096 % 64), byte (0x80 + n / 64 % 64),
      byte (0x80 + n % 64)]

def encode (c : Char) : List UInt8 :=
  encodeCode c.toNat

def encodeText (s : Text) : List UInt8 :=
  s.flatMap encode

def size (s : Text) : Nat :=
  (encodeText s).length

/-! ## Decoding -/

/-- What a first byte announces. -/
structure Lead where
  tails : Nat
  /-- The least value of the byte that follows. -/
  low : Nat
  /-- The greatest value of the byte that follows. -/
  high : Nat
  /-- The bits of the code point that the first byte holds. -/
  bits : Nat

/-- The first bytes of well-formed sequences. The bounds on the second byte keep out overlong forms
(`E0`, `F0`), surrogates (`ED`) and code points beyond `10FFFF` (`F4`). -/
def Lead.ofByte? (b : Nat) : Option Lead :=
  if b < 0x80 then some ⟨0, 0x80, 0xBF, b⟩
  else if b < 0xC2 then none
  else if b < 0xE0 then some ⟨1, 0x80, 0xBF, b - 0xC0⟩
  else if b = 0xE0 then some ⟨2, 0xA0, 0xBF, 0⟩
  else if b = 0xED then some ⟨2, 0x80, 0x9F, 0xD⟩
  else if b < 0xF0 then some ⟨2, 0x80, 0xBF, b - 0xE0⟩
  else if b = 0xF0 then some ⟨3, 0x90, 0xBF, 0⟩
  else if b < 0xF4 then some ⟨3, 0x80, 0xBF, b - 0xF0⟩
  else if b = 0xF4 then some ⟨3, 0x80, 0x8F, 4⟩
  else none

/-- Reads `n` following bytes, the next of them within `low … high` and later ones within
`80 … BF`. Stops before the first byte that does not fit. -/
def follow : (n low high bits : Nat) → List UInt8 → Option Nat × List UInt8
  | 0, _, _, bits, rest => (some bits, rest)
  | _ + 1, _, _, _, [] => (none, [])
  | n + 1, low, high, bits, b :: rest =>
    if low ≤ b.toNat ∧ b.toNat ≤ high then
      -- only the byte after the first one has bounds of its own
      follow n 0x80 0xBF (bits * 64 + (b.toNat - 0x80)) rest
    else (none, b :: rest)

theorem length_follow_le (n low high bits : Nat) (bs : List UInt8) :
    (follow n low high bits bs).2.length ≤ bs.length := by
  induction n generalizing low high bits bs with
  | zero => simp [follow]
  | succ n ih =>
    cases bs with
    | nil => simp [follow]
    | cons b rest =>
      simp only [follow]
      split
      · exact Nat.le_succ_of_le (ih ..)
      · exact Nat.le_refl _

/-- One code point, or nothing for an ill-formed run, and the bytes after it. -/
def next (b : UInt8) (rest : List UInt8) : Option Nat × List UInt8 :=
  match Lead.ofByte? b.toNat with
  | none => (none, rest)
  | some lead => follow lead.tails lead.low lead.high lead.bits rest

theorem length_next_le (b : UInt8) (rest : List UInt8) :
    (next b rest).2.length ≤ rest.length := by
  unfold next
  split
  · exact Nat.le_refl _
  · exact length_follow_le ..

/-- Stands for bytes that are no character. -/
def replacement : Char := '\uFFFD'

/-- The text of a byte list, each ill-formed run replaced. -/
def decode : List UInt8 → Text
  | [] => []
  | b :: rest =>
    ((next b rest).1.map Char.ofNat).getD replacement :: decode (next b rest).2
termination_by bs => bs.length
decreasing_by exact Nat.lt_succ_of_le (length_next_le b rest)

/-- The text of a byte list without ill-formed runs. -/
def decode? : List UInt8 → Option Text
  | [] => some []
  | b :: rest => do
    let code ← (next b rest).1
    let text ← decode? (next b rest).2
    return Char.ofNat code :: text
termination_by bs => bs.length
decreasing_by exact Nat.lt_succ_of_le (length_next_le b rest)

end Routing.Utf8

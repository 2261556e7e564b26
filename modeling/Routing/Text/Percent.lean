import Routing.Text.Numeral
import Routing.Text.Utf8

/-!
# Percent-encoding

A character outside a chosen set is written as one `%XX` group for each of its UTF-8 bytes, with
upper-case hexadecimal digits. Decoding reads every complete group, in either case, and leaves an
incomplete one as it stands.

* `Percent.encode keep` — the text with everything outside `keep` encoded;
* `Percent.bytes`, `Percent.decode` — the bytes that a text denotes, and their lossy text.
-/

namespace Routing.Percent

/-- The hexadecimal digit of a value below 16. -/
def digit (n : Nat) : Char :=
  if n < 10 then Char.ofNat ('0'.toNat + n) else Char.ofNat ('A'.toNat + (n - 10))

/-- The group `%XX` of a byte. -/
def group (b : UInt8) : Text :=
  ['%', digit (b.toNat / 16), digit (b.toNat % 16)]

/-- The groups of a character's bytes. -/
def groups (c : Char) : Text :=
  (Utf8.encode c).flatMap group

/-- The text with every character outside `keep` encoded. -/
def encode (keep : Char → Bool) (s : Text) : Text :=
  s.flatMap fun c => if keep c then [c] else groups c

/-- The bytes that a text denotes: those of its complete groups, and of its other characters. -/
def bytes : Text → List UInt8
  | '%' :: h :: l :: s =>
    match Numeral.hexValue? h, Numeral.hexValue? l with
    | some h', some l' => UInt8.ofNat (16 * h' + l') :: bytes s
    | _, _ => Utf8.encode '%' ++ bytes (h :: l :: s)
  | c :: s => Utf8.encode c ++ bytes s
  | [] => []

/-- The text that a percent-encoded text denotes, ill-formed bytes replaced. -/
def decode (s : Text) : Text :=
  Utf8.decode (bytes s)

end Routing.Percent

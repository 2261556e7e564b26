import Routing.Text.Utf8

/-!
# UTF-8 round trip

The bytes of a text are read back as the text: each character is announced by its first byte, and
the bytes that follow hold six bits of its code point each.

* `Utf8.decode_encodeText` — the text of the bytes of a text
* `Utf8.forall_ascii` — what holds of the characters of one byte; `Utf8.toNat_of_mem_encode` — no
  other character has their bytes
-/

namespace Routing.Utf8

theorem toNat_byte {n : Nat} (h : n < 256) : (byte n).toNat = n := by
  rw [UInt8.toNat_ofNat', Nat.mod_eq_of_lt h]

/-- A continuation byte in its range adds its six bits. -/
theorem follow_byte {n low high bits tail : Nat} {rest : List UInt8} (hlow : low ≤ tail + 0x80)
    (hhigh : tail + 0x80 ≤ high) (htail : tail < 64) :
    follow (n + 1) low high bits (byte (0x80 + tail) :: rest) =
      follow n 0x80 0xBF (bits * 64 + tail) rest := by
  rw [follow, toNat_byte (by omega), if_pos (by omega), Nat.add_sub_cancel_left]

/-- The first of three bytes. The range of the second one leaves out what two bytes can hold, and
the surrogates. -/
theorem ofByte?_three {n : Nat} (hlow : 0x800 ≤ n) (hhigh : n < 0x10000)
    (hsurrogate : ¬ (0xD800 ≤ n ∧ n < 0xE000)) :
    ∃ low high, Lead.ofByte? (0xE0 + n / 4096) = some ⟨2, low, high, n / 4096⟩ ∧
      low ≤ n / 64 % 64 + 0x80 ∧ n / 64 % 64 + 0x80 ≤ high := by
  rw [Lead.ofByte?, if_neg (by omega), if_neg (by omega), if_neg (by omega), Nat.add_sub_cancel_left]
  split
  · next h => exact ⟨_, _, by rw [show n / 4096 = 0 by omega], by omega, by omega⟩
  · split
    · next h => exact ⟨_, _, by rw [show n / 4096 = 13 by omega], by omega, by omega⟩
    · rw [if_pos (by omega)]
      exact ⟨_, _, rfl, by omega, by omega⟩

/-- The first of four bytes. The range of the second one leaves out what three bytes can hold, and
all beyond the last code point. -/
theorem ofByte?_four {n : Nat} (hlow : 0x10000 ≤ n) (hhigh : n < 0x110000) :
    ∃ low high, Lead.ofByte? (0xF0 + n / 262144) = some ⟨3, low, high, n / 262144⟩ ∧
      low ≤ n / 4096 % 64 + 0x80 ∧ n / 4096 % 64 + 0x80 ≤ high := by
  rw [Lead.ofByte?, if_neg (by omega), if_neg (by omega), if_neg (by omega), if_neg (by omega),
    if_neg (by omega), if_neg (by omega), Nat.add_sub_cancel_left]
  split
  · next h => exact ⟨_, _, by rw [show n / 262144 = 0 by omega], by omega, by omega⟩
  · split
    · exact ⟨_, _, rfl, by omega, by omega⟩
    · rw [if_pos (by omega), show n / 262144 = 4 by omega]
      exact ⟨_, _, rfl, by omega, by omega⟩

/-- One character is read from its bytes. -/
theorem next_encodeCode {n : Nat} (hn : n < 0x110000) (hsurrogate : ¬ (0xD800 ≤ n ∧ n < 0xE000))
    (rest : List UInt8) :
    ∃ b bs, encodeCode n = b :: bs ∧ next b (bs ++ rest) = (some n, rest) := by
  unfold encodeCode
  -- one case for each number of bytes
  split
  · next h =>
    refine ⟨_, _, rfl, ?_⟩
    rw [next, toNat_byte (by omega), Lead.ofByte?, if_pos h]
    rfl
  · split
    · next h₁ h₂ =>
      refine ⟨_, _, rfl, ?_⟩
      rw [next, toNat_byte (by omega), Lead.ofByte?, if_neg (by omega), if_neg (by omega),
        if_pos (by omega)]
      dsimp only
      rw [List.cons_append, List.nil_append, follow_byte (by omega) (by omega) (by omega), follow]
      congr 2
      omega
    · split
      · next h₁ h₂ h₃ =>
        refine ⟨_, _, rfl, ?_⟩
        rw [next, toNat_byte (by omega)]
        obtain ⟨low, high, hlead, hlow, hhigh⟩ := ofByte?_three (by omega) h₃ hsurrogate
        rw [hlead]
        dsimp only
        rw [List.cons_append, List.cons_append, List.nil_append,
          follow_byte hlow hhigh (by omega), follow_byte (by omega) (by omega) (by omega), follow]
        congr 2
        omega
      · next h₁ h₂ h₃ =>
        refine ⟨_, _, rfl, ?_⟩
        rw [next, toNat_byte (by omega)]
        obtain ⟨low, high, hlead, hlow, hhigh⟩ := ofByte?_four (by omega) hn
        rw [hlead]
        dsimp only
        rw [List.cons_append, List.cons_append, List.cons_append, List.nil_append,
          follow_byte hlow hhigh (by omega), follow_byte (by omega) (by omega) (by omega),
          follow_byte (by omega) (by omega) (by omega), follow]
        congr 2
        omega

/-- The bytes of a character are decoded to it, whatever follows. -/
theorem decode_encode_append (c : Char) (rest : List UInt8) :
    decode (encode c ++ rest) = c :: decode rest := by
  have hvalid : c.toNat < 0xD800 ∨ (0xDFFF < c.toNat ∧ c.toNat < 0x110000) := c.valid
  obtain ⟨b, bs, hbs, hnext⟩ := next_encodeCode (n := c.toNat) (by omega) (by omega) rest
  rw [encode, hbs, List.cons_append, decode, hnext]
  simp

/-- The bytes of a text are read back as the text. -/
theorem decode_encodeText (s : Text) : decode (encodeText s) = s := by
  induction s with
  | nil => rw [encodeText, List.flatMap_nil, decode]
  | cons c s ih => rw [encodeText, List.flatMap_cons, decode_encode_append, ← encodeText, ih]

theorem encodeText_append (s t : Text) : encodeText (s ++ t) = encodeText s ++ encodeText t :=
  List.flatMap_append

theorem size_append (s t : Text) : size (s ++ t) = size s + size t := by
  rw [size, encodeText_append, List.length_append]
  rfl

theorem size_pos {s : Text} (hs : s ≠ []) : 0 < size s := by
  apply List.length_pos_iff.2
  intro h
  have hself := decode_encodeText s
  rw [h, decode] at hself
  exact hs hself.symm

/-- What holds of the ASCII characters one by one. -/
theorem forall_ascii {P : Char → Prop} (h : ∀ n < 128, P (Char.ofNat n)) {c : Char}
    (hc : c.toNat < 128) : P c :=
  Char.ofNat_toNat c ▸ h c.toNat hc

/-- A byte of a character is that of an ASCII character or none that an ASCII character has. -/
theorem toNat_of_mem_encode {c : Char} {b : UInt8} (h : b ∈ encode c) :
    b.toNat = c.toNat ∨ 0x80 ≤ b.toNat := by
  have hvalid : c.toNat < 0xD800 ∨ (0xDFFF < c.toNat ∧ c.toNat < 0x110000) := c.valid
  rw [encode, encodeCode] at h
  split at h
  · rw [List.mem_singleton.1 h, toNat_byte (by omega)]
    exact .inl rfl
  · have hhigh {n : Nat} (hlo : 0x80 ≤ n) (hn : n < 256) : 0x80 ≤ (byte n).toNat := by
      rwa [toNat_byte hn]
    right
    split at h
    · simp only [List.mem_cons, List.not_mem_nil, or_false] at h
      rcases h with rfl | rfl <;> exact hhigh (by omega) (by omega)
    · split at h
      · simp only [List.mem_cons, List.not_mem_nil, or_false] at h
        rcases h with rfl | rfl | rfl <;> exact hhigh (by omega) (by omega)
      · simp only [List.mem_cons, List.not_mem_nil, or_false] at h
        rcases h with rfl | rfl | rfl | rfl <;> exact hhigh (by omega) (by omega)

end Routing.Utf8

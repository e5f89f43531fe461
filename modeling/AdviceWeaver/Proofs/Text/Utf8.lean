import AdviceWeaver.Text.Utf8

/-!
# Decoding what was encoded

A text is what its UTF-8 form decodes to, whatever characters it has: every character is one step of
decoding.

## Main results

* `Text.Utf8.decode_encode` — a text is read back from its octets.
-/

namespace AdviceWeaver.Text.Utf8

/-! ### Continuation octets -/

theorem toNat_tail (n : Nat) : (UInt8.ofNat (n % 64 + 0x80)).toNat = n % 64 + 0x80 :=
  UInt8.toNat_ofNat_of_lt' (by simp only [UInt8.size]; omega)

/-- A continuation octet is one. -/
theorem isTail_tail (n : Nat) : isTail (UInt8.ofNat (n % 64 + 0x80)) = true := by
  simp only [isTail, UInt8.le_iff_toNat_le, toNat_tail, UInt8.reduceToNat, Bool.and_eq_true,
    decide_eq_true_eq]
  omega

@[simp] theorem tailBits_tail (n : Nat) : tailBits (UInt8.ofNat (n % 64 + 0x80)) = n % 64 := by
  rw [tailBits, toNat_tail]
  omega

/-- A continuation octet may stand second unless the sequence is overlong, a surrogate or above all
scalar values. -/
theorem isSecond_tail {lead : UInt8} {n : Nat} (hE0 : lead.toNat = 0xE0 → 32 ≤ n % 64)
    (hED : lead.toNat = 0xED → n % 64 < 32) (hF0 : lead.toNat = 0xF0 → 16 ≤ n % 64)
    (hF4 : lead.toNat = 0xF4 → n % 64 < 16) :
    isSecond lead (UInt8.ofNat (n % 64 + 0x80)) = true := by
  simp only [isSecond, ← UInt8.toNat_inj, UInt8.reduceToNat, UInt8.le_iff_toNat_le, toNat_tail,
    isTail_tail]
  split
  · next h =>
    have := hE0 h
    simp
    omega
  split
  · next h =>
    have := hED h
    simp
    omega
  split
  · next h =>
    have := hF0 h
    simp
    omega
  split
  · next h =>
    have := hF4 h
    simp
    omega
  · rfl

/-! ### One character -/

/-- A character of up to seven bits is read from its octet. -/
theorem step_one {v : Nat} (h : v ≤ 0x7F) (rest : Bytes) :
    step (UInt8.ofNat v) rest = (Char.ofNat v, rest) := by
  have hlead : (UInt8.ofNat v).toNat = v :=
    UInt8.toNat_ofNat_of_lt' (Nat.lt_of_le_of_lt h (by decide))
  have hlength : sequenceLength (UInt8.ofNat v) = some 1 := by
    rw [sequenceLength, if_pos]
    rw [UInt8.lt_iff_toNat_lt, hlead]
    exact Nat.lt_of_le_of_lt h (by decide)
  simp only [step, hlength, hlead]

/-- A character of up to eleven bits is read from its two octets. -/
theorem step_two {v : Nat} (hlow : 0x7F < v) (hhigh : v ≤ 0x7FF) (rest : Bytes) :
    step (UInt8.ofNat (v / 64 % 32 + 0xC0)) (UInt8.ofNat (v % 64 + 0x80) :: rest)
      = (Char.ofNat v, rest) := by
  have hlead : (UInt8.ofNat (v / 64 % 32 + 0xC0)).toNat = v / 64 + 0xC0 := by
    rw [UInt8.toNat_ofNat_of_lt' (by simp only [UInt8.size]; omega)]
    omega
  have hlength : sequenceLength (UInt8.ofNat (v / 64 % 32 + 0xC0)) = some 2 := by
    simp only [sequenceLength, UInt8.lt_iff_toNat_lt, UInt8.le_iff_toNat_le, hlead,
      UInt8.reduceToNat]
    rw [if_neg (by omega), if_pos (by omega)]
  have hvalue : (v / 64 + 0xC0) % 32 * 64 + v % 64 = v := by omega
  simp only [step, hlength, isTail_tail, if_true, tailBits_tail, hlead, hvalue]

/-- A character of up to sixteen bits is read from its three octets, unless it is a surrogate. -/
theorem step_three {v : Nat} (hlow : 0x7FF < v) (hhigh : v ≤ 0xFFFF)
    (hscalar : ¬ (0xD800 ≤ v ∧ v ≤ 0xDFFF)) (rest : Bytes) :
    step (UInt8.ofNat (v / 4096 % 16 + 0xE0))
        (UInt8.ofNat (v / 64 % 64 + 0x80) :: UInt8.ofNat (v % 64 + 0x80) :: rest)
      = (Char.ofNat v, rest) := by
  have hlead : (UInt8.ofNat (v / 4096 % 16 + 0xE0)).toNat = v / 4096 + 0xE0 := by
    rw [UInt8.toNat_ofNat_of_lt' (by simp only [UInt8.size]; omega)]
    omega
  have hlength : sequenceLength (UInt8.ofNat (v / 4096 % 16 + 0xE0)) = some 3 := by
    simp only [sequenceLength, UInt8.lt_iff_toNat_lt, UInt8.le_iff_toNat_le, hlead,
      UInt8.reduceToNat]
    rw [if_neg (by omega), if_neg (by omega), if_pos (by omega)]
  have hsecond : isSecond (UInt8.ofNat (v / 4096 % 16 + 0xE0)) (UInt8.ofNat (v / 64 % 64 + 0x80))
      = true := by
    apply isSecond_tail <;> rw [hlead] <;> omega
  have hvalue : ((v / 4096 + 0xE0) % 16 * 64 + v / 64 % 64) * 64 + v % 64 = v := by omega
  simp only [step, hlength, hsecond, isTail_tail, if_true, tailBits_tail, hlead, hvalue]

/-- A character of up to twenty-one bits is read from its four octets. -/
theorem step_four {v : Nat} (hlow : 0xFFFF < v) (hhigh : v ≤ 0x10FFFF) (rest : Bytes) :
    step (UInt8.ofNat (v / 262144 % 8 + 0xF0))
        (UInt8.ofNat (v / 4096 % 64 + 0x80) :: UInt8.ofNat (v / 64 % 64 + 0x80)
          :: UInt8.ofNat (v % 64 + 0x80) :: rest)
      = (Char.ofNat v, rest) := by
  have hlead : (UInt8.ofNat (v / 262144 % 8 + 0xF0)).toNat = v / 262144 + 0xF0 := by
    rw [UInt8.toNat_ofNat_of_lt' (by simp only [UInt8.size]; omega)]
    omega
  have hlength : sequenceLength (UInt8.ofNat (v / 262144 % 8 + 0xF0)) = some 4 := by
    simp only [sequenceLength, UInt8.lt_iff_toNat_lt, UInt8.le_iff_toNat_le, hlead,
      UInt8.reduceToNat]
    rw [if_neg (by omega), if_neg (by omega), if_neg (by omega), if_pos (by omega)]
  have hsecond : isSecond (UInt8.ofNat (v / 262144 % 8 + 0xF0))
      (UInt8.ofNat (v / 4096 % 64 + 0x80)) = true := by
    apply isSecond_tail <;> rw [hlead] <;> omega
  have hvalue : (((v / 262144 + 0xF0) % 8 * 64 + v / 4096 % 64) * 64 + v / 64 % 64) * 64 + v % 64
      = v := by omega
  simp only [step, hlength, hsecond, isTail_tail, if_true, tailBits_tail, hlead, hvalue]

/-- **A character** is one step of decoding. -/
theorem decodeOnto_utf8EncodeChar (done : List Char) (c : Char) (rest : Bytes) :
    decodeOnto done (String.utf8EncodeChar c ++ rest) = decodeOnto (c :: done) rest := by
  have hvalid := c.valid
  simp only [UInt32.isValidChar, Nat.isValidChar] at hvalid
  have hc : Char.ofNat c.val.toNat = c := Char.ofNat_toNat c
  simp only [String.utf8EncodeChar]
  split
  · next h =>
    rw [List.cons_append, List.nil_append, decodeOnto, step_one h, hc]
  split
  · next h =>
    rw [List.cons_append, List.cons_append, List.nil_append, decodeOnto, step_two (by omega) h, hc]
  split
  · next h =>
    rw [List.cons_append, List.cons_append, List.cons_append, List.nil_append, decodeOnto,
      step_three (by omega) h (by omega), hc]
  · rw [List.cons_append, List.cons_append, List.cons_append, List.cons_append, List.nil_append,
      decodeOnto, step_four (by omega) (by omega), hc]

/-! ### Texts -/

/-- Characters in a row are read back, by induction on the characters. -/
theorem decodeOnto_flatMap (done chars : List Char) :
    decodeOnto done (chars.flatMap String.utf8EncodeChar) = done.reverse ++ chars := by
  induction chars generalizing done with
  | nil => simp [decodeOnto]
  | cons c rest ih =>
    rw [List.flatMap_cons, decodeOnto_utf8EncodeChar, ih]
    simp

/-- **A text** is read back from its octets. -/
theorem decode_encode (text : String) : decode (encode text) = text := by
  rw [decode, encode, decodeOnto_flatMap]
  simp

/-- The octets of a text are as many as its size says. -/
theorem length_encode (text : String) : (encode text).length = text.utf8ByteSize := by
  rw [encode, ← String.size_toByteArray, ← String.utf8Encode_toList, List.utf8Encode,
    List.size_toByteArray]

end AdviceWeaver.Text.Utf8

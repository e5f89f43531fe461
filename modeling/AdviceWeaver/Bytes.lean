/-!
# Byte strings

Byte strings are lists of octets, and numbers inside them are big-endian. A number of two, four or
eight octets is written by `ofUInt16`, `ofUInt32` and `ofUInt64` and read back by `toUInt16`,
`toUInt32` and `toUInt64`.

## Main results

* `toUInt16_ofUInt16`, `toUInt32_ofUInt32`, `toUInt64_ofUInt64` — reading a written number gives it back.
* `ofUInt16_toUInt16`, `ofUInt32_toUInt32` — writing a read number gives the octets back.
* `HasAt.slice?_eq` — what is cut out between two offsets stands there.
-/

namespace AdviceWeaver

/-- A byte string. -/
abbrev Bytes := List UInt8

namespace Bytes

/-! ### Big-endian numbers -/

/-- The two octets of `n`, the most significant first. -/
def ofUInt16 (n : UInt16) : Bytes :=
  [UInt8.ofNat (n.toNat / 256), UInt8.ofNat n.toNat]

/-- The number written by two octets. -/
def toUInt16 (a b : UInt8) : UInt16 :=
  UInt16.ofNat (a.toNat * 256 + b.toNat)

/-- The four octets of `n`, the most significant first. -/
def ofUInt32 (n : UInt32) : Bytes :=
  [UInt8.ofNat (n.toNat / 16777216), UInt8.ofNat (n.toNat / 65536), UInt8.ofNat (n.toNat / 256),
    UInt8.ofNat n.toNat]

/-- The number written by four octets. -/
def toUInt32 (a b c d : UInt8) : UInt32 :=
  UInt32.ofNat (((a.toNat * 256 + b.toNat) * 256 + c.toNat) * 256 + d.toNat)

/-- The eight octets of `n`, the most significant first. -/
def ofUInt64 (n : UInt64) : Bytes :=
  ofUInt32 (UInt32.ofNat (n.toNat / 4294967296)) ++ ofUInt32 (UInt32.ofNat n.toNat)

/-- The number whose upper and lower halves are `high` and `low`. -/
def toUInt64 (high low : UInt32) : UInt64 :=
  UInt64.ofNat (high.toNat * 4294967296 + low.toNat)

@[simp] theorem length_ofUInt16 (n : UInt16) : (ofUInt16 n).length = 2 := rfl

@[simp] theorem length_ofUInt32 (n : UInt32) : (ofUInt32 n).length = 4 := rfl

/-- **Reading two written octets** gives the number back. -/
theorem toUInt16_ofUInt16 (n : UInt16) :
    toUInt16 (UInt8.ofNat (n.toNat / 256)) (UInt8.ofNat n.toNat) = n := by
  apply UInt16.toNat_inj.1
  have := n.toNat_lt
  simp [toUInt16]
  omega

/-- **Writing a number read from two octets** gives the octets back. -/
theorem ofUInt16_toUInt16 (a b : UInt8) : ofUInt16 (toUInt16 a b) = [a, b] := by
  have ha := a.toNat_lt
  have hb := b.toNat_lt
  simp only [ofUInt16, toUInt16, List.cons.injEq, and_true]
  constructor
  · apply UInt8.toNat_inj.1
    simp
    omega
  · apply UInt8.toNat_inj.1
    simp

/-- **Reading four written octets** gives the number back. -/
theorem toUInt32_ofUInt32 (n : UInt32) :
    toUInt32 (UInt8.ofNat (n.toNat / 16777216)) (UInt8.ofNat (n.toNat / 65536))
      (UInt8.ofNat (n.toNat / 256)) (UInt8.ofNat n.toNat) = n := by
  apply UInt32.toNat_inj.1
  have := n.toNat_lt
  simp [toUInt32]
  omega

/-- **Writing a number read from four octets** gives the octets back. -/
theorem ofUInt32_toUInt32 (a b c d : UInt8) : ofUInt32 (toUInt32 a b c d) = [a, b, c, d] := by
  have ha := a.toNat_lt
  have hb := b.toNat_lt
  have hc := c.toNat_lt
  have hd := d.toNat_lt
  simp only [ofUInt32, toUInt32, List.cons.injEq, and_true]
  refine ⟨?_, ?_, ?_, ?_⟩ <;> apply UInt8.toNat_inj.1 <;> simp <;> omega

/-- **Reading the two halves of a written number** gives it back. -/
theorem toUInt64_ofUInt64 (n : UInt64) :
    toUInt64 (UInt32.ofNat (n.toNat / 4294967296)) (UInt32.ofNat n.toNat) = n := by
  apply UInt64.toNat_inj.1
  have := n.toNat_lt
  simp [toUInt64]
  omega

/-- Items that are written with `k` octets each take `k` octets times their number. -/
theorem length_flatMap_eq {α : Type} (f : α → Bytes) (k : Nat) (l : List α)
    (h : ∀ a, (f a).length = k) : (l.flatMap f).length = k * l.length := by
  induction l with
  | nil => rfl
  | cons a r ih => rw [List.flatMap_cons, List.length_append, h, ih, List.length_cons, Nat.mul_succ,
      Nat.add_comm]

/-! ### Prefixes and slices -/

/-- The first `n` octets and what follows them, if there are that many. -/
def split? (n : Nat) (bytes : Bytes) : Option (Bytes × Bytes) :=
  let (head, tail) := bytes.splitAt n
  if head.length = n then some (head, tail) else none

/-- The octets from `start` up to `stop`. -/
def slice (bytes : Bytes) (start stop : Nat) : Bytes :=
  (bytes.drop start).take (stop - start)

/-- The octets from `start` up to `stop`, if the string reaches that far. -/
def slice? (bytes : Bytes) (start stop : Nat) : Option Bytes :=
  if start ≤ stop ∧ stop ≤ bytes.length then some (slice bytes start stop) else none

/-- Octets are split where as many are in front as asked for. -/
theorem split?_eq_some_iff {n : Nat} {bytes head tail : Bytes} :
    split? n bytes = some (head, tail) ↔ bytes = head ++ tail ∧ head.length = n := by
  simp only [split?, List.splitAt_eq]
  constructor
  · intro h
    split at h
    · next hn =>
      cases h
      exact ⟨(List.take_append_drop n bytes).symm, hn⟩
    · cases h
  · rintro ⟨rfl, rfl⟩
    simp

/-- Octets are not split where there are too few. -/
theorem split?_eq_none_iff {n : Nat} {bytes : Bytes} :
    split? n bytes = none ↔ bytes.length < n := by
  simp only [split?, List.splitAt_eq, List.length_take]
  constructor
  · intro h
    split at h
    · cases h
    · omega
  · intro h
    rw [if_neg (by omega)]

/-! ### Places -/

/-- In `bytes`, `octets` stand at `offset`. -/
def HasAt (bytes : Bytes) (offset : Nat) (octets : Bytes) : Prop :=
  ∃ before after, bytes = before ++ octets ++ after ∧ before.length = offset

namespace HasAt

variable {bytes octets front back : Bytes} {offset : Nat}

/-- The first part of what stands at an offset stands there. -/
theorem left (h : bytes.HasAt offset (front ++ back)) : bytes.HasAt offset front := by
  obtain ⟨before, after, rfl, rfl⟩ := h
  exact ⟨before, back ++ after, by simp, rfl⟩

/-- The second part stands behind the first. -/
theorem right (h : bytes.HasAt offset (front ++ back)) :
    bytes.HasAt (offset + front.length) back := by
  obtain ⟨before, after, rfl, rfl⟩ := h
  exact ⟨before ++ front, after, by simp, by simp⟩

/-- What stands in some octets ends in them. -/
theorem length_le (h : bytes.HasAt offset octets) : offset + octets.length ≤ bytes.length := by
  obtain ⟨before, after, rfl, rfl⟩ := h
  simp

/-- **What is cut out** between two offsets stands there. -/
theorem slice_eq (h : bytes.HasAt offset octets) :
    bytes.slice offset (offset + octets.length) = octets := by
  obtain ⟨before, after, rfl, rfl⟩ := h
  simp [slice]

/-- What stands in some octets can be cut out of them. -/
theorem slice?_eq (h : bytes.HasAt offset octets) :
    bytes.slice? offset (offset + octets.length) = some octets := by
  rw [slice?, if_pos ⟨Nat.le_add_right .., h.length_le⟩, h.slice_eq]

end HasAt

end Bytes

end AdviceWeaver

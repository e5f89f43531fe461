import AdviceWeaver.Bytes

/-!
# UTF-8 with replacement

Byte strings that should hold UTF-8 but may not. Every well-formed sequence stands for its scalar
value, and every maximal prefix of an ill-formed sequence stands for one U+FFFD, so decoding never
fails and never merges two defects.

The second octet decides most of it: after `E0`, `ED`, `F0` and `F4` only part of the continuation
octets may follow (no overlong forms, no surrogates, nothing above U+10FFFF).
-/

namespace AdviceWeaver.Text.Utf8

/-- The mark that stands for an ill-formed sequence. -/
def replacement : Char := '\uFFFD'

/-- A continuation octet. -/
def isTail (b : UInt8) : Bool :=
  0x80 ≤ b && b ≤ 0xBF

/-- The octets that may follow `lead` as the second one. -/
def isSecond (lead b : UInt8) : Bool :=
  if lead = 0xE0 then 0xA0 ≤ b && b ≤ 0xBF
  else if lead = 0xED then 0x80 ≤ b && b ≤ 0x9F
  else if lead = 0xF0 then 0x90 ≤ b && b ≤ 0xBF
  else if lead = 0xF4 then 0x80 ≤ b && b ≤ 0x8F
  else isTail b

/-- The payload of a continuation octet. -/
def tailBits (b : UInt8) : Nat :=
  b.toNat % 64

/-- The number of octets of the sequence that `lead` starts; none for an octet that starts none. -/
def sequenceLength (lead : UInt8) : Option Nat :=
  if lead < 0x80 then some 1
  else if 0xC2 ≤ lead ∧ lead ≤ 0xDF then some 2
  else if 0xE0 ≤ lead ∧ lead ≤ 0xEF then some 3
  else if 0xF0 ≤ lead ∧ lead ≤ 0xF4 then some 4
  else none

/-- The scalar value or the replacement at the head, given the first octet, and the octets after
what it stands for. -/
def step (lead : UInt8) (rest : Bytes) : Char × Bytes :=
  match sequenceLength lead, rest with
  | some 1, _ => (Char.ofNat lead.toNat, rest)
  | some 2, b :: r =>
    if isTail b then (Char.ofNat (lead.toNat % 32 * 64 + tailBits b), r) else (replacement, rest)
  | some 3, b :: r =>
    if isSecond lead b then
      match r with
      | c :: r' =>
        if isTail c then
          (Char.ofNat ((lead.toNat % 16 * 64 + tailBits b) * 64 + tailBits c), r')
        else (replacement, r)
      | [] => (replacement, r)
    else (replacement, rest)
  | some 4, b :: r =>
    if isSecond lead b then
      match r with
      | c :: r' =>
        if isTail c then
          match r' with
          | d :: r'' =>
            if isTail d then
              (Char.ofNat
                (((lead.toNat % 8 * 64 + tailBits b) * 64 + tailBits c) * 64 + tailBits d), r'')
            else (replacement, r')
          | [] => (replacement, r')
        else (replacement, r)
      | [] => (replacement, r)
    else (replacement, rest)
  | _, _ => (replacement, rest)

/-- A step never lengthens what is left. -/
theorem length_step_le (lead : UInt8) (rest : Bytes) : (step lead rest).2.length ≤ rest.length := by
  unfold step
  split <;> (repeat' split) <;> simp_all <;> omega

/-- The characters of `bytes` behind the characters of `done`, which are kept in reverse. -/
def decodeOnto (done : List Char) : Bytes → List Char
  | [] => done.reverse
  | lead :: rest => decodeOnto ((step lead rest).1 :: done) (step lead rest).2
termination_by bytes => bytes.length
decreasing_by
  have := length_step_le lead rest
  simp only [List.length_cons]
  omega

/-- The text of a byte string. -/
def decode (bytes : Bytes) : String :=
  String.ofList (decodeOnto [] bytes)

/-- The UTF-8 form of a text. -/
def encode (text : String) : Bytes :=
  text.toList.flatMap String.utf8EncodeChar

/-- The text of a byte string that is well-formed throughout. -/
def decode? (bytes : Bytes) : Option String :=
  if encode (decode bytes) = bytes then some (decode bytes) else none

end AdviceWeaver.Text.Utf8

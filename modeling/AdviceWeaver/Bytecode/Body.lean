import AdviceWeaver.Bytecode.Instruction

/-!
# Method bodies as instruction sequences

`decode` takes the octets of a method body apart into instructions, from offset 0 to the end, and
`encode` writes a sequence of instructions one behind the other. The offset of an instruction is the
number of octets in front of it (`offsets`).

## Main results

* `encode_of_decode` — the octets of the decoded instructions are the body.
-/

namespace AdviceWeaver.Body

/-- The octets of instructions in a row. -/
def encode (instructions : List Instruction) : Bytes :=
  instructions.flatMap Instruction.encode

/-- The number of octets of instructions in a row. -/
def length : List Instruction → Nat
  | [] => 0
  | i :: rest => i.length + length rest

/-- The instructions of the octets that start at `pc`, behind those of `done`, which are kept in
reverse. -/
def decodeOnto (pc : Nat) (done : List Instruction) (bytes : Bytes) :
    Except WeaveError (List Instruction) :=
  match bytes with
  | [] => .ok done.reverse
  | op :: rest =>
    match _h : readInstruction pc op rest with
    | .error e => .error e
    | .ok (i, rest') => decodeOnto (pc + i.length) (i :: done) rest'
termination_by bytes.length
decreasing_by
  have octets := congrArg List.length (readInstruction_sound _h)
  have positive : 0 < i.length := by cases i <;> simp only [Instruction.length] <;> omega
  simp only [List.length_append, Instruction.length_encode] at octets
  omega

/-- The instructions of a method body. -/
def decode (bytes : Bytes) : Except WeaveError (List Instruction) :=
  decodeOnto 0 [] bytes

/-- The offset of each instruction, the first one being at `pc`. -/
def offsetsFrom (pc : Nat) (instructions : List Instruction) : List Nat :=
  (instructions.foldl (fun (at_, done) i => (at_ + i.length, at_ :: done)) (pc, [])).2.reverse

/-- The offset of each instruction of a body. -/
def offsets (instructions : List Instruction) : List Nat :=
  offsetsFrom 0 instructions

/-- A body is as long as its written form. -/
@[simp] theorem length_encode (instructions : List Instruction) :
    (encode instructions).length = length instructions := by
  induction instructions with
  | nil => rfl
  | cons i r ih =>
    simp only [encode, length, List.flatMap_cons, List.length_append,
      Instruction.length_encode] at ih ⊢
    omega

/-- What is decoded is written as it was, by induction along the decoding. -/
theorem encode_of_decodeOnto {pc : Nat} {done result : List Instruction} {bytes : Bytes}
    (h : decodeOnto pc done bytes = .ok result) : encode result = encode done.reverse ++ bytes := by
  fun_induction decodeOnto pc done bytes with
  | case1 pc done => cases h; simp
  | case2 => cases h
  | case3 pc done op rest i rest' hread ih =>
    rw [ih h, readInstruction_sound hread]
    simp [encode]

/-- **The octets of the decoded instructions** are the body. -/
theorem encode_of_decode {bytes : Bytes} {instructions : List Instruction}
    (h : decode bytes = .ok instructions) : encode instructions = bytes := by
  simpa [encode] using encode_of_decodeOnto h

end AdviceWeaver.Body

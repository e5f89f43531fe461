import AdviceWeaver.Bytes
import AdviceWeaver.Weaving.Error

/-!
# Instructions

A method body is a sequence of instructions without gaps. What matters about an instruction here is
whether its operands hold distances to other instructions: branches do, with 16 or 32 bits, and the
two switches do, behind as many padding octets as bring their operands to a multiple of four.
Everything else is an opcode with operands that mean the same wherever the instruction stands.

`encode` writes an instruction and `decode` takes a body apart; padding octets are kept, so nothing
is lost between the two.

## Main results

* `length_encode` — an instruction occupies `length` octets.
* `readInstruction_sound` — the octets that reading takes are those of the instruction it gives.
-/

namespace AdviceWeaver

/-- An instruction. -/
inductive Instruction where
  /-- An opcode whose operands hold no distance. The prefix for wide operands counts as one. -/
  | plain (opcode : UInt8) (operands : Bytes)
  | branch (opcode : UInt8) (distance : Int16)
  | wideBranch (opcode : UInt8) (distance : Int32)
  | tableSwitch (padding : Bytes) (default low high : Int32) (distances : List Int32)
  | lookupSwitch (padding : Bytes) (default : Int32) (cases : List (Int32 × Int32))
deriving DecidableEq, Repr, Inhabited

/-! ### Opcodes -/

namespace Opcode

def nop : UInt8 := 0x00
def iinc : UInt8 := 0x84
def tableSwitch : UInt8 := 0xAA
def lookupSwitch : UInt8 := 0xAB
def invokeStatic : UInt8 := 0xB8
def wide : UInt8 := 0xC4

/-- The six opcodes that leave a method normally. -/
def isReturn (opcode : UInt8) : Bool :=
  0xAC ≤ opcode && opcode ≤ 0xB1

/-- Conditional branches, jumps and subroutine calls with a distance of 16 bits. -/
def isBranch (opcode : UInt8) : Bool :=
  (0x99 ≤ opcode && opcode ≤ 0xA8) || opcode = 0xC6 || opcode = 0xC7

/-- Jump and subroutine call with a distance of 32 bits. -/
def isWideBranch (opcode : UInt8) : Bool :=
  opcode = 0xC8 || opcode = 0xC9

/-- The number of operand octets of the opcodes that always have the same number. -/
def operandLength (opcode : UInt8) : Option Nat :=
  if opcode < 0x10 then some 0
  else if opcode = 0x10 ∨ opcode = 0x12 then some 1
  else if opcode < 0x15 then some 2
  else if opcode < 0x1A then some 1
  else if opcode < 0x36 then some 0
  else if opcode < 0x3B then some 1
  else if opcode < 0x84 then some 0
  else if opcode = 0x84 then some 2
  else if opcode < 0x99 then some 0
  else if opcode < 0xA9 then some 2
  else if opcode = 0xA9 then some 1
  else if opcode < 0xAC then none
  else if opcode < 0xB2 then some 0
  else if opcode < 0xB9 then some 2
  else if opcode < 0xBB then some 4
  else if opcode = 0xBB then some 2
  else if opcode = 0xBC then some 1
  else if opcode = 0xBD then some 2
  else if opcode < 0xC0 then some 0
  else if opcode < 0xC2 then some 2
  else if opcode < 0xC4 then some 0
  else if opcode = 0xC4 then none
  else if opcode = 0xC5 then some 3
  else if opcode < 0xC8 then some 2
  else if opcode < 0xCA then some 4
  else none

end Opcode

/-- The number of padding octets behind the opcode of a switch at `pc`. -/
def switchPadding (pc : Nat) : Nat :=
  (4 - (pc + 1) % 4) % 4

namespace Instruction

/-- The first octet of an instruction. -/
def opcode : Instruction → UInt8
  | .plain op _ | .branch op _ | .wideBranch op _ => op
  | .tableSwitch .. => Opcode.tableSwitch
  | .lookupSwitch .. => Opcode.lookupSwitch

/-- Whether the instruction leaves the method normally. -/
def isReturn (i : Instruction) : Bool :=
  Opcode.isReturn i.opcode

/-- The number of octets of an instruction. -/
def length : Instruction → Nat
  | .plain _ operands => 1 + operands.length
  | .branch .. => 3
  | .wideBranch .. => 5
  | .tableSwitch padding _ _ _ distances => 1 + padding.length + 12 + 4 * distances.length
  | .lookupSwitch padding _ cases => 1 + padding.length + 8 + 8 * cases.length

/-- The octets of a signed number of 32 bits. -/
def encodeInt32 (n : Int32) : Bytes :=
  Bytes.ofUInt32 n.toUInt32

/-- The octets of a key and the distance that belongs to it. -/
def encodeCase (entry : Int32 × Int32) : Bytes :=
  encodeInt32 entry.1 ++ encodeInt32 entry.2

/-- The octets of an instruction. -/
def encode : Instruction → Bytes
  | .plain op operands => op :: operands
  | .branch op distance => op :: Bytes.ofUInt16 distance.toUInt16
  | .wideBranch op distance => op :: encodeInt32 distance
  | .tableSwitch padding default low high distances =>
    Opcode.tableSwitch :: padding ++ encodeInt32 default ++ encodeInt32 low ++ encodeInt32 high
      ++ distances.flatMap encodeInt32
  | .lookupSwitch padding default cases =>
    Opcode.lookupSwitch :: padding ++ encodeInt32 default
      ++ encodeInt32 (Int32.ofInt (cases.length : Int))
      ++ cases.flatMap encodeCase

/-- The call of the static method that the constant `method` refers to. -/
def call (method : UInt16) : Instruction :=
  .plain Opcode.invokeStatic (Bytes.ofUInt16 method)

/-- The instruction that does nothing. -/
def nop : Instruction :=
  .plain Opcode.nop []

/-- An instruction occupies `length` octets. -/
@[simp] theorem length_encode (i : Instruction) : i.encode.length = i.length := by
  have table (l : List Int32) := Bytes.length_flatMap_eq encodeInt32 4 l
    fun _ => rfl
  have lookup (l : List (Int32 × Int32)) := Bytes.length_flatMap_eq encodeCase 8 l
    fun _ => rfl
  cases i <;> simp only [encode, length, table, lookup, encodeInt32, List.length_cons,
    List.length_append, Bytes.length_ofUInt16, Bytes.length_ofUInt32] <;> omega

end Instruction

/-! ### Decoding -/

/-- The next signed number of 32 bits, and what follows it. -/
def readInt32 (bytes : Bytes) : Option (Int32 × Bytes) :=
  match bytes with
  | a :: b :: c :: d :: rest => some ((Bytes.toUInt32 a b c d).toInt32, rest)
  | _ => none

/-- The numbers of 32 bits that `bytes` holds, from which what is left over is dropped. -/
def readInt32s (bytes : Bytes) : List Int32 :=
  go bytes []
where
  go : Bytes → List Int32 → List Int32
    | a :: b :: c :: d :: rest, done => go rest ((Bytes.toUInt32 a b c d).toInt32 :: done)
    | _, done => done.reverse

/-- Numbers by twos. -/
def pairUp (numbers : List Int32) : List (Int32 × Int32) :=
  go numbers []
where
  go : List Int32 → List (Int32 × Int32) → List (Int32 × Int32)
    | a :: b :: rest, done => go rest ((a, b) :: done)
    | _, done => done.reverse

/-- A four-byte number is read from its big-endian octets. -/
theorem readInt32_eq_some {bytes rest : Bytes} {n : Int32} (h : readInt32 bytes = some (n, rest)) :
    bytes = Instruction.encodeInt32 n ++ rest := by
  unfold readInt32 at h
  split at h
  · cases h
    simp [Instruction.encodeInt32, Bytes.ofUInt32_toUInt32]
  · cases h

/-- The loop that reads numbers has what was read before in front. -/
theorem readInt32s_go (bytes : Bytes) (done : List Int32) :
    readInt32s.go bytes done = done.reverse ++ readInt32s.go bytes [] := by
  match bytes with
  | a :: b :: c :: d :: rest =>
    rw [readInt32s.go, readInt32s_go, readInt32s.go,
      readInt32s_go rest [(Bytes.toUInt32 a b c d).toInt32]]
    simp
  | [] | [_] | [_, _] | [_, _, _] => simp [readInt32s.go]

/-- Reading numbers and writing them again gives back a string of whole numbers. -/
theorem flatMap_readInt32s (bytes : Bytes) (h : bytes.length % 4 = 0) :
    (readInt32s bytes).flatMap Instruction.encodeInt32 = bytes := by
  match bytes with
  | a :: b :: c :: d :: rest =>
    rw [readInt32s, readInt32s.go, readInt32s_go]
    have ih := flatMap_readInt32s rest (by simp only [List.length_cons] at h; omega)
    rw [readInt32s] at ih
    simp [ih, Instruction.encodeInt32, Bytes.ofUInt32_toUInt32]
  | [] => rfl
  | [_] | [_, _] | [_, _, _] => simp at h

/-- There are as many numbers as there are fours of octets. -/
theorem length_readInt32s (bytes : Bytes) : (readInt32s bytes).length = bytes.length / 4 := by
  match bytes with
  | a :: b :: c :: d :: rest =>
    rw [readInt32s, readInt32s.go, readInt32s_go]
    have ih := length_readInt32s rest
    rw [readInt32s] at ih
    simp [ih]
    omega
  | [] => rfl
  | [_] | [_, _] | [_, _, _] => simp [readInt32s, readInt32s.go]

/-- The loop that pairs numbers up has the pairs made before in front. -/
theorem pairUp_go (numbers : List Int32) (done : List (Int32 × Int32)) :
    pairUp.go numbers done = done.reverse ++ pairUp.go numbers [] := by
  match numbers with
  | a :: b :: rest =>
    rw [pairUp.go, pairUp_go, pairUp.go, pairUp_go rest [(a, b)]]
    simp
  | [] => simp [pairUp.go]
  | [_] => simp [pairUp.go]

/-- Pairing numbers up keeps their octets. -/
theorem flatMap_pairUp (numbers : List Int32) (h : numbers.length % 2 = 0) :
    (pairUp numbers).flatMap Instruction.encodeCase
      = numbers.flatMap Instruction.encodeInt32 := by
  match numbers with
  | a :: b :: rest =>
    rw [pairUp, pairUp.go, pairUp_go]
    have ih := flatMap_pairUp rest (by simp only [List.length_cons] at h; omega)
    rw [pairUp] at ih
    simp [ih, Instruction.encodeCase]
  | [] => rfl
  | [_] => simp at h

/-- There are half as many pairs as numbers. -/
theorem length_pairUp (numbers : List Int32) : (pairUp numbers).length = numbers.length / 2 := by
  match numbers with
  | a :: b :: rest =>
    rw [pairUp, pairUp.go, pairUp_go]
    have ih := length_pairUp rest
    rw [pairUp] at ih
    simp [ih]
    omega
  | [] => rfl
  | [_] => simp [pairUp, pairUp.go]

/-- The padding and the default distance of a switch, and what follows them. -/
def readSwitchHead (pc : Nat) (rest : Bytes) : Option (Bytes × Int32 × Bytes) :=
  match Bytes.split? (switchPadding pc) rest with
  | none => none
  | some (padding, rest) =>
    match readInt32 rest with
    | none => none
    | some (default, rest) => some (padding, default, rest)

/-- The table switch at `pc` from the octets behind its opcode. -/
def readTableSwitch (pc : Nat) (rest : Bytes) : Except WeaveError (Instruction × Bytes) :=
  let base := pc + 1 + switchPadding pc
  match readSwitchHead pc rest with
  | none => .error (.truncated (base + 4))
  | some (padding, default, rest) =>
    match readInt32 rest with
    | none => .error (.truncated (base + 4))
    | some (low, rest) =>
      match readInt32 rest with
      | none => .error (.truncated (base + 8))
      | some (high, rest) =>
        if high.toInt < low.toInt then .error (.malformedSwitch pc)
        else
          match Bytes.split? (4 * (high.toInt - low.toInt + 1).toNat) rest with
          | none => .error (.truncated pc)
          | some (table, rest) =>
            .ok (.tableSwitch padding default low high (readInt32s table), rest)

/-- The lookup switch at `pc` from the octets behind its opcode. -/
def readLookupSwitch (pc : Nat) (rest : Bytes) : Except WeaveError (Instruction × Bytes) :=
  let base := pc + 1 + switchPadding pc
  match readSwitchHead pc rest with
  | none => .error (.truncated (base + 4))
  | some (padding, default, rest) =>
    match readInt32 rest with
    | none => .error (.truncated (base + 4))
    | some (count, rest) =>
      if count.toInt < 0 then .error (.malformedSwitch pc)
      else
        match Bytes.split? (8 * count.toInt.toNat) rest with
        | none => .error (.truncated pc)
        | some (table, rest) =>
          .ok (.lookupSwitch padding default (pairUp (readInt32s table)), rest)

/-- The instruction with `count` operand octets at `pc`. -/
def readOperands (pc : Nat) (op : UInt8) (count : Nat) (rest : Bytes) :
    Except WeaveError (Instruction × Bytes) :=
  match Bytes.split? count rest with
  | some (operands, rest) => .ok (.plain op operands, rest)
  | none => .error (.truncated pc)

/-- The branch at `pc` with a distance of 16 bits. -/
def readBranch (pc : Nat) (op : UInt8) (rest : Bytes) : Except WeaveError (Instruction × Bytes) :=
  match rest with
  | a :: b :: rest => .ok (.branch op (Bytes.toUInt16 a b).toInt16, rest)
  | _ => .error (.truncated pc)

/-- The branch at `pc` with a distance of 32 bits. -/
def readWideBranch (pc : Nat) (op : UInt8) (rest : Bytes) :
    Except WeaveError (Instruction × Bytes) :=
  match readInt32 rest with
  | some (distance, rest) => .ok (.wideBranch op distance, rest)
  | none => .error (.truncated pc)

/-- The instruction at `pc` from the octets behind the prefix for wide operands: an increment has
five more octets, anything else three. -/
def readWide (pc : Nat) (rest : Bytes) : Except WeaveError (Instruction × Bytes) :=
  match rest with
  | op :: _ => readOperands pc Opcode.wide (if op = Opcode.iinc then 5 else 3) rest
  | [] => .error (.truncated pc)

/-- The instruction at `pc` that starts with `op`, and the octets that follow it. -/
def readInstruction (pc : Nat) (op : UInt8) (rest : Bytes) :
    Except WeaveError (Instruction × Bytes) :=
  if op = Opcode.tableSwitch then readTableSwitch pc rest
  else if op = Opcode.lookupSwitch then readLookupSwitch pc rest
  else if op = Opcode.wide then readWide pc rest
  else if Opcode.isBranch op then readBranch pc op rest
  else if Opcode.isWideBranch op then readWideBranch pc op rest
  else
    match Opcode.operandLength op with
    | some count => readOperands pc op count rest
    | none => .error (.unknownOpcode op pc)

/-! ### What decoding takes -/

/-- The head of a switch is its padding and its default. -/
theorem readSwitchHead_eq_some {pc : Nat} {rest rest' padding : Bytes} {default : Int32}
    (h : readSwitchHead pc rest = some (padding, default, rest')) :
    rest = padding ++ Instruction.encodeInt32 default ++ rest'
      ∧ padding.length = switchPadding pc := by
  unfold readSwitchHead at h
  split at h
  · cases h
  next hsplit =>
  split at h
  · cases h
  next hread =>
  cases h
  obtain ⟨rfl, hlen⟩ := Bytes.split?_eq_some_iff.1 hsplit
  rw [readInt32_eq_some hread, List.append_assoc]
  exact ⟨rfl, hlen⟩

/-- A plain instruction that was read is written as it was. -/
theorem readOperands_sound {pc count : Nat} {op : UInt8} {rest rest' : Bytes} {i : Instruction}
    (h : readOperands pc op count rest = .ok (i, rest')) : op :: rest = i.encode ++ rest' := by
  unfold readOperands at h
  split at h
  · next hsplit =>
    cases h
    simp [Instruction.encode, (Bytes.split?_eq_some_iff.1 hsplit).1]
  · cases h

/-- A table switch that was read is written as it was. -/
theorem readTableSwitch_sound {pc : Nat} {rest rest' : Bytes} {i : Instruction}
    (h : readTableSwitch pc rest = .ok (i, rest')) :
    Opcode.tableSwitch :: rest = i.encode ++ rest' := by
  simp only [readTableSwitch] at h
  split at h
  · cases h
  next hhead =>
  split at h
  · cases h
  next hlow =>
  split at h
  · cases h
  next hhigh =>
  split at h
  · cases h
  split at h
  · cases h
  next table _ hsplit =>
  cases h
  obtain ⟨rfl, -⟩ := readSwitchHead_eq_some hhead
  obtain rfl := readInt32_eq_some hlow
  obtain rfl := readInt32_eq_some hhigh
  obtain ⟨rfl, hlen⟩ := Bytes.split?_eq_some_iff.1 hsplit
  simp [Instruction.encode, flatMap_readInt32s table (by omega)]

/-- A lookup switch that was read is written as it was. -/
theorem readLookupSwitch_sound {pc : Nat} {rest rest' : Bytes} {i : Instruction}
    (h : readLookupSwitch pc rest = .ok (i, rest')) :
    Opcode.lookupSwitch :: rest = i.encode ++ rest' := by
  simp only [readLookupSwitch] at h
  split at h
  · cases h
  next hhead =>
  split at h
  · cases h
  next count _ hcount =>
  split at h
  · cases h
  next hnonneg =>
  split at h
  · cases h
  next table _ hsplit =>
  cases h
  obtain ⟨rfl, -⟩ := readSwitchHead_eq_some hhead
  obtain rfl := readInt32_eq_some hcount
  obtain ⟨rfl, hlen⟩ := Bytes.split?_eq_some_iff.1 hsplit
  have hnumbers := length_readInt32s table
  have hpairs := length_pairUp (readInt32s table)
  have hcases : ((pairUp (readInt32s table)).length : Int) = count.toInt := by omega
  simp [Instruction.encode, hcases, flatMap_pairUp (readInt32s table) (by omega),
    flatMap_readInt32s table (by omega)]

/-- **The octets that reading takes** are those of the instruction it gives. -/
theorem readInstruction_sound {pc : Nat} {op : UInt8} {rest rest' : Bytes} {i : Instruction}
    (h : readInstruction pc op rest = .ok (i, rest')) : op :: rest = i.encode ++ rest' := by
  unfold readInstruction at h
  split at h
  · next hop => exact hop ▸ readTableSwitch_sound h
  split at h
  · next hop => exact hop ▸ readLookupSwitch_sound h
  split at h
  · next hop =>
    unfold readWide at h
    split at h
    · exact hop ▸ readOperands_sound h
    · cases h
  split at h
  · unfold readBranch at h
    split at h
    · cases h
      simp [Instruction.encode, Bytes.ofUInt16_toUInt16]
    · cases h
  split at h
  · unfold readWideBranch at h
    split at h
    · next hread =>
      cases h
      simp [Instruction.encode, readInt32_eq_some hread]
    · cases h
  split at h
  · exact readOperands_sound h
  · cases h

end AdviceWeaver

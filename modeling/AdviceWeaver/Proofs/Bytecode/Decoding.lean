import AdviceWeaver.Bytecode.Body

/-!
# Decoding and encoding method bodies

`Body.decode` and `Body.encode` are inverse to each other on the sequences that can stand in a
method body: every instruction has the operands that its opcode asks for, and a switch has the
padding that its offset asks for (`Instruction.WellFormedAt`, `Body.WellFormedFrom`).

## Main results

* `readInstruction_encode` — a well-formed instruction is read back, whatever follows it.
* `readInstruction_wellFormed` — what reading gives is well-formed.
* `Body.decode_eq_ok_iff` — a body decodes to a sequence exactly if the sequence is well-formed and
  the body is its octets.
-/

namespace AdviceWeaver

/-- The number of operand octets behind the prefix for wide operands. -/
def Opcode.wideLength (widened : UInt8) : Nat :=
  if widened = Opcode.iinc then 5 else 3

/-- Whether `operands` is what an opcode without distances is followed by. -/
def Opcode.OperandsFit (op : UInt8) (operands : Bytes) : Prop :=
  if op = Opcode.wide then
    ∃ widened rest, operands = widened :: rest ∧ operands.length = Opcode.wideLength widened
  else
    op ≠ Opcode.tableSwitch ∧ op ≠ Opcode.lookupSwitch ∧ Opcode.isBranch op = false
      ∧ Opcode.isWideBranch op = false ∧ Opcode.operandLength op = some operands.length

/-- Whether an instruction can stand at `pc` of a body. -/
def Instruction.WellFormedAt (pc : Nat) : Instruction → Prop
  | .plain op operands => Opcode.OperandsFit op operands
  | .branch op _ => Opcode.isBranch op = true
  | .wideBranch op _ => Opcode.isWideBranch op = true
  | .tableSwitch padding _ low high distances =>
    padding.length = switchPadding pc ∧ low.toInt ≤ high.toInt
      ∧ distances.length = (high.toInt - low.toInt + 1).toNat
  | .lookupSwitch padding _ cases =>
    padding.length = switchPadding pc ∧ cases.length < 2147483648

/-- An instruction takes at least its opcode. -/
theorem Instruction.length_pos (i : Instruction) : 0 < i.length := by
  cases i <;> simp only [Instruction.length] <;> omega

/-! ### Numbers -/

/-- A four-byte distance is read back. -/
@[simp] theorem readInt32_encodeInt32 (n : Int32) (rest : Bytes) :
    readInt32 (Instruction.encodeInt32 n ++ rest) = some (n, rest) := by
  simp only [readInt32, Instruction.encodeInt32, Bytes.ofUInt32, List.cons_append,
    List.nil_append, Bytes.toUInt32_ofUInt32, Int32.toInt32_toUInt32]

/-- The distance of a branch is read back. -/
theorem readBranch_ofUInt16 (pc : Nat) (op : UInt8) (distance : Int16) (rest : Bytes) :
    readBranch pc op (Bytes.ofUInt16 distance.toUInt16 ++ rest)
      = .ok (.branch op distance, rest) := by
  simp only [readBranch, Bytes.ofUInt16, List.cons_append, List.nil_append,
    Bytes.toUInt16_ofUInt16, Int16.toInt16_toUInt16]

/-- Numbers that were written are read back. -/
theorem readInt32s_flatMap (numbers : List Int32) :
    readInt32s (numbers.flatMap Instruction.encodeInt32) = numbers := by
  induction numbers with
  | nil => rfl
  | cons n rest ih =>
    rw [readInt32s] at ih ⊢
    simp only [List.flatMap_cons, Instruction.encodeInt32, Bytes.ofUInt32, List.cons_append,
      List.nil_append, readInt32s.go, Bytes.toUInt32_ofUInt32, Int32.toInt32_toUInt32]
    rw [readInt32s_go]
    exact congrArg (n :: ·) ih

/-- Numbers that were put side by side are paired up as they were. -/
theorem pairUp_flatMap (cases : List (Int32 × Int32)) :
    pairUp (cases.flatMap fun c => [c.1, c.2]) = cases := by
  induction cases with
  | nil => rfl
  | cons c rest ih =>
    rw [pairUp] at ih ⊢
    simp only [List.flatMap_cons, List.cons_append, List.nil_append, pairUp.go]
    rw [pairUp_go, ih]
    rfl

/-- Cases that were written are read back as pairs of numbers. -/
theorem pairUp_readInt32s_flatMap (cases : List (Int32 × Int32)) :
    pairUp (readInt32s (cases.flatMap Instruction.encodeCase)) = cases := by
  have numbers : cases.flatMap Instruction.encodeCase
      = (cases.flatMap fun c => [c.1, c.2]).flatMap Instruction.encodeInt32 := by
    rw [List.flatMap_assoc]
    exact congrArg (cases.flatMap ·) (funext fun c => by simp [Instruction.encodeCase])
  rw [numbers, readInt32s_flatMap, pairUp_flatMap]

/-! ### Reading what was written -/

/-- The octets of an instruction behind its opcode. -/
def Instruction.operandOctets (i : Instruction) : Bytes :=
  i.encode.tail

theorem Instruction.encode_eq_cons (i : Instruction) : i.encode = i.opcode :: i.operandOctets := by
  cases i <;> rfl

/-- The head of a switch is read back: the padding is as long as its offset asks for. -/
theorem readSwitchHead_encode {pc : Nat} {padding : Bytes} (default : Int32) (rest : Bytes)
    (h : padding.length = switchPadding pc) :
    readSwitchHead pc (padding ++ (Instruction.encodeInt32 default ++ rest))
      = some (padding, default, rest) := by
  have hsplit := Bytes.split?_eq_some_iff.2
    ⟨(rfl : padding ++ (Instruction.encodeInt32 default ++ rest) = _), h⟩
  simp [readSwitchHead, hsplit]

/-- Operands are read back, as many as are asked for. -/
theorem readOperands_append (pc : Nat) (op : UInt8) (operands rest : Bytes) :
    readOperands pc op operands.length (operands ++ rest) = .ok (.plain op operands, rest) := by
  have hsplit := Bytes.split?_eq_some_iff.2 ⟨(rfl : operands ++ rest = _), rfl⟩
  simp [readOperands, hsplit]

/-- **Reading back.** A well-formed instruction is read from its octets, whatever follows them. -/
theorem readInstruction_encode {pc : Nat} {i : Instruction} (h : i.WellFormedAt pc)
    (rest : Bytes) :
    readInstruction pc i.opcode (i.operandOctets ++ rest) = .ok (i, rest) := by
  cases i with
  | plain op operands =>
    simp only [Instruction.WellFormedAt, Opcode.OperandsFit] at h
    simp only [Instruction.opcode, Instruction.operandOctets, Instruction.encode, List.tail_cons]
    split at h
    · next hwide =>
      obtain ⟨widened, more, rfl, hlength⟩ := h
      have hread := readOperands_append pc op (widened :: more) rest
      subst hwide
      rw [hlength] at hread
      simpa [readInstruction, readWide, Opcode.wide, Opcode.tableSwitch, Opcode.lookupSwitch,
        Opcode.wideLength] using hread
    · next hwide =>
      obtain ⟨htable, hlookup, hbranch, hwideBranch, hcount⟩ := h
      simp [readInstruction, hwide, htable, hlookup, hbranch, hwideBranch, hcount,
        readOperands_append]
  | branch op distance =>
    simp only [Instruction.WellFormedAt] at h
    have hne : op ≠ Opcode.tableSwitch ∧ op ≠ Opcode.lookupSwitch ∧ op ≠ Opcode.wide := by
      refine ⟨?_, ?_, ?_⟩ <;> rintro rfl <;> exact absurd h (by decide)
    simp only [Instruction.opcode, Instruction.operandOctets, Instruction.encode, List.tail_cons]
    simp [readInstruction, hne, h, readBranch_ofUInt16]
  | wideBranch op distance =>
    simp only [Instruction.WellFormedAt] at h
    have hne : op ≠ Opcode.tableSwitch ∧ op ≠ Opcode.lookupSwitch ∧ op ≠ Opcode.wide
        ∧ Opcode.isBranch op = false := by
      simp only [Opcode.isWideBranch, Bool.or_eq_true, decide_eq_true_eq] at h
      obtain rfl | rfl := h <;> decide
    simp [readInstruction, hne, h, Instruction.opcode, Instruction.operandOctets,
      Instruction.encode, readWideBranch]
  | tableSwitch padding default low high distances =>
    obtain ⟨hpadding, hle, hcount⟩ := h
    have hsplit := Bytes.split?_eq_some_iff.2
      ⟨(rfl : distances.flatMap Instruction.encodeInt32 ++ rest = _),
        Bytes.length_flatMap_eq Instruction.encodeInt32 4 distances fun _ => rfl⟩
    rw [hcount] at hsplit
    simp [readInstruction, readTableSwitch, Instruction.opcode, Instruction.operandOctets,
      Instruction.encode, List.append_assoc, readSwitchHead_encode _ _ hpadding,
      Int.not_lt.2 hle, hsplit, readInt32s_flatMap]
  | lookupSwitch padding default cases =>
    obtain ⟨hpadding, hcount⟩ := h
    have hread : (Int32.ofInt (cases.length : Int)).toInt = cases.length :=
      Int32.toInt_ofInt_of_le (by omega) (by omega)
    have hsplit := Bytes.split?_eq_some_iff.2
      ⟨(rfl : cases.flatMap Instruction.encodeCase ++ rest = _),
        Bytes.length_flatMap_eq Instruction.encodeCase 8 cases fun _ => rfl⟩
    have htag : Opcode.lookupSwitch ≠ Opcode.tableSwitch := by decide
    simp only [readInstruction, Instruction.opcode, Instruction.operandOctets, Instruction.encode,
      List.cons_append, List.tail_cons, List.append_assoc, htag, if_false, if_true,
      readLookupSwitch, readSwitchHead_encode _ _ hpadding, readInt32_encodeInt32, hread,
      Int.toNat_natCast, hsplit, pairUp_readInt32s_flatMap]
    rw [if_neg (by omega)]

/-! ### What reading gives -/

/-- Operands that were read are as many as were asked for, in front of what is left. -/
theorem readOperands_eq {pc count : Nat} {op : UInt8} {rest rest' : Bytes} {i : Instruction}
    (h : readOperands pc op count rest = .ok (i, rest')) :
    ∃ operands, i = .plain op operands ∧ operands.length = count
      ∧ rest = operands ++ rest' := by
  unfold readOperands at h
  split at h
  · next hsplit =>
    cases h
    obtain ⟨hrest, hlength⟩ := Bytes.split?_eq_some_iff.1 hsplit
    exact ⟨_, rfl, hlength, hrest⟩
  · cases h

/-- A table switch that was read has the padding of its offset and as many distances as its bounds tell.
-/
theorem readTableSwitch_wellFormed {pc : Nat} {rest rest' : Bytes} {i : Instruction}
    (h : readTableSwitch pc rest = .ok (i, rest')) : i.WellFormedAt pc := by
  simp only [readTableSwitch] at h
  split at h
  · cases h
  next hhead =>
  split at h
  · cases h
  split at h
  · cases h
  split at h
  · cases h
  next hle =>
  split at h
  · cases h
  next hsplit =>
  cases h
  have hlength := (Bytes.split?_eq_some_iff.1 hsplit).2
  refine ⟨(readSwitchHead_eq_some hhead).2, Int.not_lt.1 hle, ?_⟩
  rw [length_readInt32s, hlength]
  omega

/-- A lookup switch that was read has the padding of its offset and as many pairs as it counts. -/
theorem readLookupSwitch_wellFormed {pc : Nat} {rest rest' : Bytes} {i : Instruction}
    (h : readLookupSwitch pc rest = .ok (i, rest')) : i.WellFormedAt pc := by
  simp only [readLookupSwitch] at h
  split at h
  · cases h
  next hhead =>
  split at h
  · cases h
  next count _ hcount =>
  split at h
  · cases h
  split at h
  · cases h
  next hsplit =>
  cases h
  have hlength := (Bytes.split?_eq_some_iff.1 hsplit).2
  have hbound := count.toInt_lt
  refine ⟨(readSwitchHead_eq_some hhead).2, ?_⟩
  rw [length_pairUp, length_readInt32s, hlength]
  omega

/-- An instruction behind the prefix `wide` that was read has operands of the wide length. -/
theorem readWide_wellFormed {pc : Nat} {rest rest' : Bytes} {i : Instruction}
    (h : readWide pc rest = .ok (i, rest')) : i.WellFormedAt pc := by
  unfold readWide at h
  split at h
  · next widened _ =>
    obtain ⟨operands, rfl, hlength, hrest⟩ := readOperands_eq h
    cases operands with
    | nil => split at hlength <;> cases hlength
    | cons first more =>
      obtain rfl := (List.cons.inj hrest).1
      simp only [Instruction.WellFormedAt, Opcode.OperandsFit, if_true]
      exact ⟨widened, more, rfl, hlength⟩
  · cases h

/-- **What reading gives** can stand where it was read, and starts with the opcode read. -/
theorem readInstruction_wellFormed {pc : Nat} {op : UInt8} {rest rest' : Bytes}
    {i : Instruction} (h : readInstruction pc op rest = .ok (i, rest')) :
    i.WellFormedAt pc := by
  unfold readInstruction at h
  split at h
  · exact readTableSwitch_wellFormed h
  next htable =>
  split at h
  · exact readLookupSwitch_wellFormed h
  next hlookup =>
  split at h
  · exact readWide_wellFormed h
  next hwide =>
  split at h
  · next hbranch =>
    unfold readBranch at h
    split at h
    · cases h
      exact hbranch
    · cases h
  next hbranch =>
  split at h
  · next hwideBranch =>
    unfold readWideBranch at h
    split at h
    · cases h
      exact hwideBranch
    · cases h
  next hwideBranch =>
  split at h
  · next hcount =>
    obtain ⟨operands, rfl, hlength, -⟩ := readOperands_eq h
    simp only [Instruction.WellFormedAt, Opcode.OperandsFit, if_neg hwide]
    exact ⟨htable, hlookup, by simpa using hbranch, by simpa using hwideBranch, hlength ▸ hcount⟩
  · cases h

/-! ### Bodies -/

namespace Body

/-- Whether instructions can stand in a row from `pc` on. -/
def WellFormedFrom (pc : Nat) : List Instruction → Prop
  | [] => True
  | i :: rest => i.WellFormedAt pc ∧ WellFormedFrom (pc + i.length) rest

@[simp] theorem encode_cons (i : Instruction) (rest : List Instruction) :
    encode (i :: rest) = i.encode ++ encode rest :=
  List.flatMap_cons

@[simp] theorem length_nil : length [] = 0 := rfl

@[simp] theorem length_cons (i : Instruction) (rest : List Instruction) :
    length (i :: rest) = i.length + length rest := rfl

/-- The length of a body in two parts is the sum of theirs. -/
@[simp] theorem length_append (front back : List Instruction) :
    length (front ++ back) = length front + length back := by
  induction front with
  | nil => simp
  | cons i rest ih => simp only [List.cons_append, length_cons, ih]; omega

/-- Beginnings of a sequence that have as many octets are the same. -/
theorem eq_of_length_eq {before before' after after' : List Instruction}
    (h : before ++ after = before' ++ after') (hlength : length before = length before') :
    before = before' ∧ after = after' := by
  induction before generalizing before' with
  | nil =>
    cases before' with
    | nil => exact ⟨rfl, h⟩
    | cons i rest =>
      have := i.length_pos
      simp only [length_nil, length_cons] at hlength
      omega
  | cons i rest ih =>
    cases before' with
    | nil =>
      have := i.length_pos
      simp only [length_nil, length_cons] at hlength
      omega
    | cons i' rest' =>
      simp only [List.cons_append, List.cons.injEq] at h
      obtain ⟨rfl, h⟩ := h
      simp only [length_cons, Nat.add_left_cancel_iff] at hlength
      obtain ⟨rfl, rfl⟩ := ih h hlength
      exact ⟨rfl, rfl⟩

/-- A body in two parts is well-formed if both parts are, each at its own offset. -/
theorem wellFormedFrom_append {pc : Nat} {front back : List Instruction} :
    WellFormedFrom pc (front ++ back)
      ↔ WellFormedFrom pc front ∧ WellFormedFrom (pc + length front) back := by
  induction front generalizing pc with
  | nil => simp [WellFormedFrom]
  | cons i rest ih =>
    simp only [List.cons_append, WellFormedFrom, ih, length_cons, and_assoc, Nat.add_assoc]

/-- A well-formed body is decoded from its written form, by induction on its instructions. -/
theorem decodeOnto_encode {pc : Nat} {instructions : List Instruction}
    (h : WellFormedFrom pc instructions) (done : List Instruction) :
    decodeOnto pc done (encode instructions) = .ok (done.reverse ++ instructions) := by
  induction instructions generalizing pc done with
  | nil => simp [encode, decodeOnto]
  | cons i rest ih =>
    rw [encode_cons, i.encode_eq_cons, List.cons_append, decodeOnto]
    split
    · next hread =>
      rw [readInstruction_encode h.1] at hread
      cases hread
    · next hread =>
      rw [readInstruction_encode h.1] at hread
      cases hread
      rw [ih h.2]
      simp

/-- What is decoded is well-formed from the offset where the decoding stands, by induction along it. -/
theorem wellFormedFrom_of_decodeOnto {pc : Nat} {done instructions : List Instruction}
    {bytes : Bytes} (h : decodeOnto pc done bytes = .ok instructions) :
    ∃ more, instructions = done.reverse ++ more ∧ WellFormedFrom pc more := by
  fun_induction decodeOnto pc done bytes with
  | case1 pc done =>
    cases h
    exact ⟨[], by simp, trivial⟩
  | case2 => cases h
  | case3 pc done op rest i rest' hread ih =>
    obtain ⟨more, rfl, hmore⟩ := ih h
    exact ⟨i :: more, by simp, readInstruction_wellFormed hread, hmore⟩

/-- **Decoding is the inverse of encoding.** A body decodes to a sequence exactly if every
instruction of the sequence can stand where it stands and the body is the octets of the sequence. -/
theorem decode_eq_ok_iff {bytes : Bytes} {instructions : List Instruction} :
    decode bytes = .ok instructions
      ↔ WellFormedFrom 0 instructions ∧ encode instructions = bytes := by
  constructor
  · intro h
    obtain ⟨more, rfl, hmore⟩ := wellFormedFrom_of_decodeOnto h
    exact ⟨by simpa using hmore, encode_of_decode h⟩
  · rintro ⟨hwf, rfl⟩
    exact decodeOnto_encode hwf []

/-- A decoded body is as long as the octets it was decoded from. -/
theorem length_of_decode {bytes : Bytes} {instructions : List Instruction}
    (h : decode bytes = .ok instructions) : length instructions = bytes.length := by
  rw [← encode_of_decode h, length_encode]

end Body

end AdviceWeaver

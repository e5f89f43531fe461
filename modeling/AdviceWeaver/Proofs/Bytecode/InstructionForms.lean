import AdviceWeaver.Proofs.Bytecode.Decoding
import Mathlib.Data.List.Basic

/-!
# The layouts that decode

A method body is a layout of instructions: strings of octets in a row, each of which has one of the
forms of an instruction at the offset where it begins (`Instruction.Form`, `Body.LaidOut`). The
forms are those of the instruction set: an opcode with the operands that the table of lengths gives
it, the prefix for wide operands with what it widens, and the two switches, whose padding brings
their operands to a multiple of four. Nothing in this description refers to how a body is read.

Decoding gives back the parts of a layout, with where they begin, how long they are and their first
octets; what decodes is a layout, whose parts cover the body without gaps or overlaps; and what is
refused is no layout.

## Main results

* `Instruction.form_encode`, `Instruction.exists_of_form` — the forms at an offset are the octets of
  the instructions that can stand there.
* `Body.exists_decode_of_laidOut`, `Body.laidOut_of_decode` — layouts decode, and what decodes is one.
* `Body.tiles_spansFrom` — strings in a row cover every octet exactly once.
* `Body.decode_inverts_layouts` — decoding and laying out are inverse to each other.
-/

namespace AdviceWeaver

/-! ### The table of lengths -/

/-- The number of octets of an instruction by its opcode, sixteen opcodes in a row. It is 0 for the
two switches and the prefix for wide operands, whose lengths vary, and from `0xCA` on no opcode is an
instruction of a class file. -/
def Opcode.lengths : List Nat :=
  [1, 1, 1, 1, 1, 1, 1, 1, 1, 1, 1, 1, 1, 1, 1, 1,
   2, 3, 2, 3, 3, 2, 2, 2, 2, 2, 1, 1, 1, 1, 1, 1,
   1, 1, 1, 1, 1, 1, 1, 1, 1, 1, 1, 1, 1, 1, 1, 1,
   1, 1, 1, 1, 1, 1, 2, 2, 2, 2, 2, 1, 1, 1, 1, 1,
   1, 1, 1, 1, 1, 1, 1, 1, 1, 1, 1, 1, 1, 1, 1, 1,
   1, 1, 1, 1, 1, 1, 1, 1, 1, 1, 1, 1, 1, 1, 1, 1,
   1, 1, 1, 1, 1, 1, 1, 1, 1, 1, 1, 1, 1, 1, 1, 1,
   1, 1, 1, 1, 1, 1, 1, 1, 1, 1, 1, 1, 1, 1, 1, 1,
   1, 1, 1, 1, 3, 1, 1, 1, 1, 1, 1, 1, 1, 1, 1, 1,
   1, 1, 1, 1, 1, 1, 1, 1, 1, 3, 3, 3, 3, 3, 3, 3,
   3, 3, 3, 3, 3, 3, 3, 3, 3, 2, 0, 0, 1, 1, 1, 1,
   1, 1, 3, 3, 3, 3, 3, 3, 3, 5, 5, 3, 2, 3, 1, 1,
   3, 3, 1, 1, 0, 4, 3, 3, 5, 5]

/-- What holds of the first 256 numbers as opcodes holds of every opcode. -/
theorem Opcode.forall_of_forall_lt {p : UInt8 → Prop}
    (h : ∀ n : Fin 256, p (UInt8.ofNat n.val)) (op : UInt8) : p op := by
  simpa using h ⟨op.toNat, op.toNat_lt⟩

/-- The table has one octet more than there are operands, and nothing for the rest. -/
theorem Opcode.getD_lengths (op : UInt8) :
    Opcode.lengths.getD op.toNat 0 = (Opcode.operandLength op).elim 0 (· + 1) := by
  refine Opcode.forall_of_forall_lt
    (p := fun op => lengths.getD op.toNat 0 = (operandLength op).elim 0 (· + 1)) ?_ op
  decide +kernel

/-- A branch has an operand of two octets. -/
theorem Opcode.operandLength_of_isBranch {op : UInt8} (h : Opcode.isBranch op = true) :
    Opcode.operandLength op = some 2 := by
  revert h
  refine Opcode.forall_of_forall_lt
    (p := fun op => isBranch op = true → operandLength op = some 2) ?_ op
  decide +kernel

/-- A wide branch has an operand of four octets. -/
theorem Opcode.operandLength_of_isWideBranch {op : UInt8} (h : Opcode.isWideBranch op = true) :
    Opcode.operandLength op = some 4 := by
  revert h
  refine Opcode.forall_of_forall_lt
    (p := fun op => isWideBranch op = true → operandLength op = some 4) ?_ op
  decide +kernel

/-- An opcode has an entry of `n + 1` octets exactly if it has `n` octets of operands. -/
theorem Opcode.getD_lengths_eq_iff {op : UInt8} {n : Nat} :
    Opcode.lengths.getD op.toNat 0 = n + 1 ↔ Opcode.operandLength op = some n := by
  rw [Opcode.getD_lengths]
  cases Opcode.operandLength op <;> simp

/-! ### Forms -/

namespace Instruction

/-- **The forms of an instruction** that begins at `pc`, as strings of octets. -/
inductive Form (pc : Nat) : Bytes → Prop
  /-- An opcode with as many operands as the table of lengths gives it. -/
  | fixed {op : UInt8} {operands : Bytes}
      (hlength : Opcode.lengths.getD op.toNat 0 = operands.length + 1) : Form pc (op :: operands)
  /-- An increment with a wide variable and a wide number. -/
  | wideIncrement {operands : Bytes} (hlength : operands.length = 4) :
      Form pc (Opcode.wide :: Opcode.iinc :: operands)
  /-- Any other opcode with a wide operand. -/
  | wide {op : UInt8} {operands : Bytes} (hop : op ≠ Opcode.iinc) (hlength : operands.length = 2) :
      Form pc (Opcode.wide :: op :: operands)
  /-- A switch with a distance for each number from `low` to `high`. -/
  | tableSwitch {padding table : Bytes} {default low high : Int32} (hpadding : padding.length < 4)
      (haligned : (pc + 1 + padding.length) % 4 = 0) (hle : low.toInt ≤ high.toInt)
      (hlength : (table.length : Int) = 4 * (high.toInt - low.toInt + 1)) :
      Form pc (Opcode.tableSwitch :: padding ++ encodeInt32 default ++ encodeInt32 low
        ++ encodeInt32 high ++ table)
  /-- A switch with `count` pairs of a number and a distance. -/
  | lookupSwitch {padding table : Bytes} {default count : Int32} (hpadding : padding.length < 4)
      (haligned : (pc + 1 + padding.length) % 4 = 0) (hcount : 0 ≤ count.toInt)
      (hlength : (table.length : Int) = 8 * count.toInt) :
      Form pc (Opcode.lookupSwitch :: padding ++ encodeInt32 default ++ encodeInt32 count ++ table)

variable {pc : Nat} {octets : Bytes}

/-- The padding of a switch is the shortest that brings its operands to a multiple of four. -/
theorem eq_switchPadding_iff {n : Nat} :
    n = switchPadding pc ↔ n < 4 ∧ (pc + 1 + n) % 4 = 0 := by
  rw [switchPadding]
  omega

/-- A plain instruction has the form of its opcode: one of a fixed length, or one with wide operands. -/
theorem form_plain {op : UInt8} {operands : Bytes} (h : Opcode.OperandsFit op operands) :
    Form pc (op :: operands) := by
  unfold Opcode.OperandsFit at h
  split at h
  · next hop =>
    obtain ⟨widened, more, rfl, hlength⟩ := h
    rw [Opcode.wideLength, List.length_cons] at hlength
    subst hop
    split at hlength
    · next hiinc =>
      subst hiinc
      exact .wideIncrement (Nat.succ.inj hlength)
    · next hiinc => exact .wide hiinc (Nat.succ.inj hlength)
  · obtain ⟨-, -, -, -, hlength⟩ := h
    exact .fixed (Opcode.getD_lengths_eq_iff.2 hlength)

/-- **Instructions have forms.** The octets of an instruction that can stand at `pc` have a form of
an instruction there. -/
theorem form_encode {i : Instruction} (h : i.WellFormedAt pc) : Form pc i.encode := by
  cases i with
  | plain op operands => exact form_plain h
  | branch op distance =>
    exact .fixed (Opcode.getD_lengths_eq_iff.2 (Opcode.operandLength_of_isBranch h))
  | wideBranch op distance =>
    exact .fixed (Opcode.getD_lengths_eq_iff.2 (Opcode.operandLength_of_isWideBranch h))
  | tableSwitch padding default low high distances =>
    obtain ⟨hpadding, hle, hcount⟩ := h
    obtain ⟨hshort, haligned⟩ := eq_switchPadding_iff.1 hpadding
    refine .tableSwitch hshort haligned hle ?_
    rw [Bytes.length_flatMap_eq encodeInt32 4 distances fun _ => rfl]
    omega
  | lookupSwitch padding default cases =>
    obtain ⟨hpadding, hcount⟩ := h
    obtain ⟨hshort, haligned⟩ := eq_switchPadding_iff.1 hpadding
    have hread : (Int32.ofInt (cases.length : Int)).toInt = cases.length :=
      Int32.toInt_ofInt_of_le (by omega) (by omega)
    refine .lookupSwitch hshort haligned (by omega) ?_
    rw [Bytes.length_flatMap_eq encodeCase 8 cases fun _ => rfl, hread]
    omega

/-- An opcode of the table, with its operands, is an instruction: a branch if the opcode is one of
the branches. -/
theorem exists_of_fixed {op : UInt8} {operands : Bytes}
    (h : Opcode.operandLength op = some operands.length) :
    ∃ i : Instruction, i.WellFormedAt pc ∧ i.encode = op :: operands := by
  by_cases hbranch : Opcode.isBranch op = true
  · rw [Opcode.operandLength_of_isBranch hbranch, Option.some.injEq] at h
    obtain ⟨a, b, rfl⟩ := List.length_eq_two.1 h.symm
    exact ⟨.branch op (Bytes.toUInt16 a b).toInt16, hbranch,
      by simp [encode, Bytes.ofUInt16_toUInt16]⟩
  by_cases hwide : Opcode.isWideBranch op = true
  · rw [Opcode.operandLength_of_isWideBranch hwide, Option.some.injEq] at h
    obtain ⟨a, rest, rfl, hrest⟩ := List.length_eq_succ_iff.1 h.symm
    obtain ⟨b, c, d, rfl⟩ := List.length_eq_three.1 hrest
    exact ⟨.wideBranch op (Bytes.toUInt32 a b c d).toInt32, hwide,
      by simp [encode, encodeInt32, Bytes.ofUInt32_toUInt32]⟩
  refine ⟨.plain op operands, ?_, rfl⟩
  have hne : op ≠ Opcode.wide ∧ op ≠ Opcode.tableSwitch ∧ op ≠ Opcode.lookupSwitch := by
    refine ⟨?_, ?_, ?_⟩ <;> rintro rfl <;> cases h
  simp only [WellFormedAt, Opcode.OperandsFit, if_neg hne.1]
  exact ⟨hne.2.1, hne.2.2, by simpa using hbranch, by simpa using hwide, h⟩

/-- **Forms are instructions.** A string of octets that has a form of an instruction at `pc` is the
octets of an instruction that can stand there. -/
theorem exists_of_form (h : Form pc octets) :
    ∃ i : Instruction, i.WellFormedAt pc ∧ i.encode = octets := by
  cases h with
  | fixed hlength => exact exists_of_fixed (Opcode.getD_lengths_eq_iff.1 hlength)
  | @wideIncrement operands hlength =>
    exact ⟨.plain Opcode.wide (Opcode.iinc :: operands), ⟨Opcode.iinc, operands, rfl,
      congrArg Nat.succ hlength⟩, rfl⟩
  | @wide op operands hop hlength =>
    refine ⟨.plain Opcode.wide (op :: operands), ⟨op, operands, rfl, ?_⟩, rfl⟩
    rw [Opcode.wideLength, if_neg hop, List.length_cons, hlength]
  | @tableSwitch padding table default low high hpadding haligned hle hlength =>
    refine ⟨.tableSwitch padding default low high (readInt32s table),
      ⟨eq_switchPadding_iff.2 ⟨hpadding, haligned⟩, hle, ?_⟩, ?_⟩
    · rw [length_readInt32s]
      omega
    · rw [encode, flatMap_readInt32s table (by omega)]
  | @lookupSwitch padding table default count hpadding haligned hcount hlength =>
    have hnumbers := length_readInt32s table
    have hpairs := length_pairUp (readInt32s table)
    have hcases : ((pairUp (readInt32s table)).length : Int) = count.toInt := by omega
    refine ⟨.lookupSwitch padding default (pairUp (readInt32s table)),
      ⟨eq_switchPadding_iff.2 ⟨hpadding, haligned⟩, ?_⟩, ?_⟩
    · have := count.toInt_lt
      omega
    · rw [encode, hcases, Int32.ofInt_toInt, flatMap_pairUp _ (by omega),
        flatMap_readInt32s table (by omega)]

end Instruction

/-! ### Layouts -/

namespace Body

/-- Whether strings of octets in a row, the first one at `pc`, each have a form of an instruction. -/
def LaidOut (pc : Nat) : List Bytes → Prop
  | [] => True
  | octets :: rest => Instruction.Form pc octets ∧ LaidOut (pc + octets.length) rest

/-- Where strings in a row begin, the first one at `pc`, with their lengths. -/
def spansFrom (pc : Nat) : List Bytes → List (Nat × Nat)
  | [] => []
  | octets :: rest => (pc, octets.length) :: spansFrom (pc + octets.length) rest

/-- Whether spans, given by where they begin and their lengths, lie between `start` and `stop` and
cover every offset between these exactly once. -/
def Tiles (start stop : Nat) (spans : List (Nat × Nat)) : Prop :=
  (∀ span ∈ spans, start ≤ span.1 ∧ span.1 + span.2 ≤ stop)
    ∧ ∀ n, start ≤ n → n < stop →
      ∃! k : Nat, ∃ span : Nat × Nat, spans[k]? = some span ∧ span.1 ≤ n ∧ n < span.1 + span.2

variable {pc : Nat} {instructions : List Instruction} {parts : List Bytes}

/-- The written instructions of a well-formed body are a layout. -/
theorem laidOut_encode (h : WellFormedFrom pc instructions) :
    LaidOut pc (instructions.map Instruction.encode) := by
  induction instructions generalizing pc with
  | nil => trivial
  | cons i rest ih =>
    refine ⟨Instruction.form_encode h.1, ?_⟩
    rw [Instruction.length_encode]
    exact ih h.2

/-- A layout is the written form of some well-formed instructions, by induction on its parts. -/
theorem exists_of_laidOut (h : LaidOut pc parts) :
    ∃ instructions, WellFormedFrom pc instructions
      ∧ instructions.map Instruction.encode = parts := by
  induction parts generalizing pc with
  | nil => exact ⟨[], trivial, rfl⟩
  | cons octets rest ih =>
    obtain ⟨i, hi, rfl⟩ := Instruction.exists_of_form h.1
    obtain ⟨more, hmore, rfl⟩ := ih h.2
    rw [Instruction.length_encode] at hmore
    exact ⟨i :: more, ⟨hi, hmore⟩, rfl⟩

/-- The parts in a row are the written body. -/
theorem flatten_map_encode (instructions : List Instruction) :
    (instructions.map Instruction.encode).flatten = encode instructions :=
  List.flatMap_def.symm

/-- **Layouts decode.** The octets of a layout decode to instructions whose octets are its parts. -/
theorem exists_decode_of_laidOut (h : LaidOut 0 parts) :
    ∃ instructions, decode parts.flatten = .ok instructions
      ∧ instructions.map Instruction.encode = parts := by
  obtain ⟨instructions, hwf, rfl⟩ := exists_of_laidOut h
  exact ⟨instructions, decode_eq_ok_iff.2 ⟨hwf, (flatten_map_encode _).symm⟩, rfl⟩

/-- **What decodes is a layout**, whose parts are the octets of the instructions. -/
theorem laidOut_of_decode {bytes : Bytes} (h : decode bytes = .ok instructions) :
    LaidOut 0 (instructions.map Instruction.encode)
      ∧ (instructions.map Instruction.encode).flatten = bytes := by
  obtain ⟨hwf, rfl⟩ := decode_eq_ok_iff.1 h
  exact ⟨laidOut_encode hwf, flatten_map_encode _⟩

/-! ### Offsets -/

@[simp] theorem offsetsFrom_nil (pc : Nat) : offsetsFrom pc [] = [] := rfl

/-- The loop that collects offsets in reverse has what was collected before behind. -/
theorem foldl_offsets (instructions : List Instruction) (pc : Nat) (done : List Nat) :
    (instructions.foldl (fun (at_, done) i => (at_ + i.length, at_ :: done)) (pc, done)).2
      = (instructions.foldl (fun (at_, done) i => (at_ + i.length, at_ :: done)) (pc, [])).2
        ++ done := by
  induction instructions generalizing pc done with
  | nil => rfl
  | cons i rest ih =>
    rw [List.foldl_cons, List.foldl_cons, ih, ih _ [pc], List.append_assoc, List.singleton_append]

/-- The first instruction stands where the body begins, and the others behind it. -/
@[simp] theorem offsetsFrom_cons (pc : Nat) (i : Instruction) (rest : List Instruction) :
    offsetsFrom pc (i :: rest) = pc :: offsetsFrom (pc + i.length) rest := by
  rw [offsetsFrom, List.foldl_cons, foldl_offsets, List.reverse_append]
  rfl

/-- The offsets of instructions are where their octets begin. -/
theorem spansFrom_map_encode (pc : Nat) (instructions : List Instruction) :
    spansFrom pc (instructions.map Instruction.encode)
      = (offsetsFrom pc instructions).zip (instructions.map Instruction.length) := by
  induction instructions generalizing pc with
  | nil => rfl
  | cons i rest ih =>
    rw [List.map_cons, spansFrom, Instruction.length_encode, ih, offsetsFrom_cons, List.map_cons,
      List.zip_cons_cons]

/-- **Strings in a row** cover every octet between the first one's start and the last one's end
exactly once. -/
theorem tiles_spansFrom (pc : Nat) (parts : List Bytes) :
    Tiles pc (pc + parts.flatten.length) (spansFrom pc parts) := by
  induction parts generalizing pc with
  | nil => exact ⟨by simp [spansFrom], fun n hle hlt => absurd hlt (by simpa using hle)⟩
  | cons octets rest ih =>
    obtain ⟨hinside, hcover⟩ := ih (pc + octets.length)
    rw [List.flatten_cons, List.length_append, ← Nat.add_assoc]
    refine ⟨?_, fun n hle hlt => ?_⟩
    · simp only [spansFrom, List.mem_cons, forall_eq_or_imp]
      exact ⟨⟨Nat.le_refl _, Nat.le_add_right ..⟩,
        fun span hspan => ⟨Nat.le_trans (Nat.le_add_right ..) (hinside span hspan).1,
          (hinside span hspan).2⟩⟩
    -- An offset in the first string is in none of the others, which begin behind it.
    by_cases hfirst : n < pc + octets.length
    · refine ⟨0, ⟨_, rfl, hle, hfirst⟩, ?_⟩
      rintro (_ | k) ⟨span, hspan, hbegin, -⟩
      · rfl
      · have := (hinside span (List.mem_of_getElem? hspan)).1
        omega
    · obtain ⟨k, hk, hunique⟩ := hcover n (Nat.le_of_not_lt hfirst) hlt
      refine ⟨k + 1, hk, ?_⟩
      rintro (_ | k') ⟨span, hspan, hbegin, hend⟩
      · cases hspan
        exact absurd hend hfirst
      · exact congrArg Nat.succ (hunique k' ⟨span, hspan, hbegin, hend⟩)

/-- Each of the strings stands where it begins. -/
theorem hasAt_of_spansFrom {k : Nat} {span : Nat × Nat} {octets : Bytes}
    (hspan : (spansFrom pc parts)[k]? = some span) (hpart : parts[k]? = some octets) :
    ∃ offset, span = (pc + offset, octets.length) ∧ Bytes.HasAt parts.flatten offset octets := by
  induction parts generalizing pc k with
  | nil => cases hpart
  | cons first rest ih =>
    cases k with
    | zero =>
      cases hspan
      cases hpart
      exact ⟨0, rfl, [], rest.flatten, rfl, rfl⟩
    | succ k =>
      obtain ⟨offset, rfl, before, after, hrest, rfl⟩ := ih hspan hpart
      refine ⟨first.length + before.length, by rw [Nat.add_assoc], first ++ before, after, ?_,
        List.length_append⟩
      rw [List.flatten_cons, hrest]
      simp only [List.append_assoc]

/-- Each part of a layout has the form that its own offset asks for. -/
theorem form_of_spansFrom (h : LaidOut pc parts) {k : Nat} {span : Nat × Nat} {octets : Bytes}
    (hspan : (spansFrom pc parts)[k]? = some span) (hpart : parts[k]? = some octets) :
    Instruction.Form span.1 octets := by
  induction parts generalizing pc k with
  | nil => cases hpart
  | cons first rest ih =>
    cases k with
    | zero =>
      cases hspan
      cases hpart
      exact h.1
    | succ k => exact ih h.2 hspan hpart

/-- There is one offset for each instruction. -/
theorem length_offsetsFrom (pc : Nat) (instructions : List Instruction) :
    (offsetsFrom pc instructions).length = instructions.length := by
  induction instructions generalizing pc with
  | nil => rfl
  | cons i rest ih => rw [offsetsFrom_cons, List.length_cons, ih, List.length_cons]

/-- **What stands where.** Each instruction of a body has an offset; there its octets stand, in one
of the forms of an instruction. -/
theorem exists_offset_of_decode {bytes : Bytes} (h : decode bytes = .ok instructions) {k : Nat}
    {i : Instruction} (hi : instructions[k]? = some i) :
    ∃ pc, (offsets instructions)[k]? = some pc ∧ bytes.HasAt pc i.encode
      ∧ Instruction.Form pc i.encode := by
  obtain ⟨hlaid, rfl⟩ := laidOut_of_decode h
  have hpart : (instructions.map Instruction.encode)[k]? = some i.encode := by simp [hi]
  obtain ⟨pc, hpc⟩ : ∃ pc, (offsets instructions)[k]? = some pc := by
    refine ⟨_, List.getElem?_eq_getElem ?_⟩
    rw [offsets, length_offsetsFrom]
    exact (List.getElem?_eq_some_iff.1 hi).1
  have hspan : (spansFrom 0 (instructions.map Instruction.encode))[k]? = some (pc, i.length) := by
    rw [spansFrom_map_encode, List.getElem?_zip_eq_some]
    exact ⟨hpc, by simp [hi]⟩
  obtain ⟨offset, hoffset, hat⟩ := hasAt_of_spansFrom hspan hpart
  obtain rfl : pc = offset := by simpa using congrArg Prod.fst hoffset
  exact ⟨pc, hpc, hat, form_of_spansFrom hlaid hspan hpart⟩

theorem head?_encode (i : Instruction) : i.encode.head? = some i.opcode := by
  rw [i.encode_eq_cons, List.head?_cons]

/-- **Decoding and laying out are inverse to each other.** A layout decodes to exactly its parts,
with where they begin, their lengths and their opcodes. The instructions of a body that decodes
cover it from its start to its end, every octet exactly once, and each stands at its offset, with
its operands, in a form of an instruction. A body is refused exactly if it is no layout. -/
theorem decode_inverts_layouts :
    (∀ parts, LaidOut 0 parts → ∃ instructions, decode parts.flatten = .ok instructions
      ∧ instructions.map Instruction.encode = parts
      ∧ (offsets instructions).zip (instructions.map Instruction.length) = spansFrom 0 parts
      ∧ instructions.map (fun i => some i.opcode) = parts.map List.head?)
    ∧ (∀ bytes instructions, decode bytes = .ok instructions →
      Tiles 0 bytes.length ((offsets instructions).zip (instructions.map Instruction.length))
      ∧ ∀ (k : Nat) (i : Instruction), instructions[k]? = some i → ∃ pc, (offsets instructions)[k]? = some pc
        ∧ bytes.HasAt pc i.encode ∧ Instruction.Form pc i.encode)
    ∧ ∀ bytes, (∃ e, decode bytes = .error e)
      ↔ ¬∃ parts, LaidOut 0 parts ∧ parts.flatten = bytes := by
  refine ⟨fun parts hlaid => ?_, fun bytes instructions h => ⟨?_, fun k i hi => ?_⟩,
    fun bytes => ⟨?_, fun hnone => ?_⟩⟩
  · obtain ⟨instructions, hdecode, rfl⟩ := exists_decode_of_laidOut hlaid
    refine ⟨instructions, hdecode, rfl, (spansFrom_map_encode 0 instructions).symm, ?_⟩
    rw [List.map_map]
    exact List.map_congr_left fun i _ => (head?_encode i).symm
  · have htiles := tiles_spansFrom 0 (instructions.map Instruction.encode)
    rwa [(laidOut_of_decode h).2, spansFrom_map_encode, Nat.zero_add] at htiles
  · exact exists_offset_of_decode h hi
  · rintro ⟨e, he⟩ ⟨parts, hlaid, rfl⟩
    obtain ⟨instructions, hdecode, -⟩ := exists_decode_of_laidOut hlaid
    rw [hdecode] at he
    cases he
  · cases hdecode : decode bytes with
    | error e => exact ⟨e, rfl⟩
    | ok instructions => exact absurd ⟨_, laidOut_of_decode hdecode⟩ hnone

/-- An increment and a load with wide operands, a switch that needs an octet of padding, and a
return. -/
def wideLayout : List Bytes :=
  [[0xC4, 0x84, 0, 1, 3, 0xE8], [0xC4, 0x15, 1, 44],
    [0xAB, 9, 0, 0, 0, 18, 0, 0, 0, 1, 0, 0, 0, 7, 0, 0, 0, 18], [0xB1]]

/-- The parts are a layout, with one octet of padding behind the opcode of the switch at offset 10. -/
theorem laidOut_wideLayout : LaidOut 0 wideLayout :=
  ⟨.wideIncrement rfl, .wide (by decide) rfl,
    @Instruction.Form.lookupSwitch 10 [9] [0, 0, 0, 7, 0, 0, 0, 18] 18 1 (by decide) (by decide)
      (by decide) (by decide), .fixed (by decide), trivial⟩

/-- The layout decodes to instructions at 0, 6, 10 and 28, which cover its 29 octets. An increment
with wide operands that is cut short is refused: it is no layout. -/
theorem decode_inverts_layouts_wide :
    LaidOut 0 wideLayout
    ∧ (∃ instructions, decode wideLayout.flatten = .ok instructions
      ∧ (offsets instructions).zip (instructions.map Instruction.length)
        = [(0, 6), (6, 4), (10, 18), (28, 1)]
      ∧ instructions.map (fun i => some i.opcode) = [some 0xC4, some 0xC4, some 0xAB, some 0xB1]
      ∧ Tiles 0 29 [(0, 6), (6, 4), (10, 18), (28, 1)])
    ∧ ¬∃ parts, LaidOut 0 parts ∧ parts.flatten = [0xC4, 0x84, 0, 1, 3] := by
  obtain ⟨instructions, hdecode, -, hspans, hopcodes⟩ :=
    decode_inverts_layouts.1 wideLayout laidOut_wideLayout
  have htiles := (decode_inverts_layouts.2.1 _ _ hdecode).1
  rw [hspans] at htiles
  exact ⟨laidOut_wideLayout, ⟨instructions, hdecode, hspans, hopcodes, htiles⟩,
    (decode_inverts_layouts.2.2 _).1 ⟨.truncated 0, by simp [decode, decodeOnto, readInstruction,
      readWide, readOperands, Bytes.split?, Opcode.tableSwitch, Opcode.lookupSwitch, Opcode.wide,
      Opcode.iinc]⟩⟩

end Body

end AdviceWeaver

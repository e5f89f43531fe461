import AdviceWeaver.ClassFile.Attribute
import AdviceWeaver.Proofs.Bytecode.Decoding
import Mathlib.Data.List.Induction

/-!
# The control flow of a method body

Control stands at an offset of the body, where an instruction starts, and moves on to another one
(`CodeOf.Flow`): to the instruction behind, along a distance of a branch or a switch, from the end
of a subroutine to behind any call of one, or to a handler that protects the instruction. A
`CodeOf.Path` is what control visits from offset 0 on, each visit being an offset and the
instruction there.

## Conventions

Handlers are reached from every protected instruction except at the offsets that are `calm`, where
instructions are taken to complete normally. A call of a subroutine does not fall through: what is
behind it is reached from the end of a subroutine only.

## Main results

* `CodeOf.At.unique` — at most one instruction starts at an offset.
* `CodeOf.path_concat_iff` — a path goes on exactly where control arrives and an instruction starts.
-/

namespace AdviceWeaver

/-! ### What instructions do to control -/

namespace Instruction

/-- The end of a subroutine, with or without the prefix for wide operands. -/
def endsSubroutine : Instruction → Bool
  | .plain op operands => op = 0xA9 || (op = Opcode.wide && operands.head? = some 0xA9)
  | _ => false

/-- The call of a subroutine. -/
def callsSubroutine : Instruction → Bool
  | .branch op _ => op = 0xA8
  | .wideBranch op _ => op = 0xC9
  | _ => false

/-- Whether control may go on behind the instruction: neither a return, nor a throw, nor the end of
a subroutine, nor a jump that is taken in any case. -/
def fallsThrough : Instruction → Bool
  | .plain op operands =>
    !(Opcode.isReturn op || op = 0xBF || (plain op operands).endsSubroutine)
  | .branch op _ => op ≠ 0xA7 && op ≠ 0xA8
  | .wideBranch .. | .tableSwitch .. | .lookupSwitch .. => false

/-- The distances to where the instruction may jump. -/
def distances : Instruction → List Int
  | .plain .. => []
  | .branch _ distance => [distance.toInt]
  | .wideBranch _ distance => [distance.toInt]
  | .tableSwitch _ default _ _ distances => default.toInt :: distances.map Int32.toInt
  | .lookupSwitch _ default cases => default.toInt :: cases.map fun c => c.2.toInt

/-- The instruction without its distances and its padding: what it does, wherever it stands. -/
def skeleton : Instruction → Instruction
  | .plain op operands => .plain op operands
  | .branch op _ => .branch op 0
  | .wideBranch op _ => .wideBranch op 0
  | .tableSwitch _ _ low high distances => .tableSwitch [] 0 low high (distances.map fun _ => 0)
  | .lookupSwitch _ _ cases => .lookupSwitch [] 0 (cases.map fun c => (c.1, 0))

theorem opcode_skeleton (i : Instruction) : i.skeleton.opcode = i.opcode := by
  cases i <;> rfl

@[simp] theorem isReturn_skeleton (i : Instruction) : i.skeleton.isReturn = i.isReturn := by
  simp only [isReturn, opcode_skeleton]

/-- Instructions that differ in their distances only are both returns or neither is. -/
theorem isReturn_eq {i j : Instruction} (h : j.skeleton = i.skeleton) :
    j.isReturn = i.isReturn := by
  rw [← isReturn_skeleton, h, isReturn_skeleton]

@[simp] theorem fallsThrough_skeleton (i : Instruction) :
    i.skeleton.fallsThrough = i.fallsThrough := by
  cases i <;> rfl

@[simp] theorem endsSubroutine_skeleton (i : Instruction) :
    i.skeleton.endsSubroutine = i.endsSubroutine := by
  cases i <;> rfl

@[simp] theorem callsSubroutine_skeleton (i : Instruction) :
    i.skeleton.callsSubroutine = i.callsSubroutine := by
  cases i <;> rfl

/-- Control passes the instruction and goes on behind it, wherever it stands. -/
structure Passes (i : Instruction) : Prop where
  fallsThrough : i.fallsThrough = true
  distances : i.distances = []
  endsSubroutine : i.endsSubroutine = false
  callsSubroutine : i.callsSubroutine = false
  skeleton : i.skeleton = i

theorem passes_call (method : UInt16) : (call method).Passes :=
  ⟨rfl, rfl, rfl, rfl, rfl⟩

theorem passes_nop : nop.Passes :=
  ⟨rfl, rfl, rfl, rfl, rfl⟩

end Instruction

/-- Whether a handler protects the instruction at `pc`. -/
def ExceptionHandler.Covers (h : ExceptionHandler) (pc : Nat) : Prop :=
  h.start.toNat ≤ pc ∧ pc < h.stop.toNat

/-- An offset and the instruction there. -/
abbrev Visit := Nat × Instruction

/-- The visit without the distances of its instruction. -/
def Visit.skeleton (v : Visit) : Visit :=
  (v.1, v.2.skeleton)

namespace CodeOf

variable {α : Type}

/-- The instruction `i` starts at the offset `pc` of a body. -/
def At (body : CodeOf α) (pc : Nat) (i : Instruction) : Prop :=
  ∃ before after, Body.decode body.code = .ok (before ++ i :: after) ∧ Body.length before = pc

/-- Control may move on from one offset to another. Instructions at `calm` offsets complete
normally. -/
inductive Flow (body : CodeOf α) (calm : Nat → Prop) : Nat → Nat → Prop
  | next {pc : Nat} {i : Instruction} :
      body.At pc i → i.fallsThrough = true → Flow body calm pc (pc + i.length)
  | jump {pc target : Nat} {i : Instruction} {distance : Int} :
      body.At pc i → distance ∈ i.distances → (target : Int) = pc + distance →
      Flow body calm pc target
  | subroutineEnd {pc site : Nat} {i call : Instruction} :
      body.At pc i → i.endsSubroutine = true → body.At site call → call.callsSubroutine = true →
      Flow body calm pc (site + call.length)
  | raise {pc : Nat} {i : Instruction} {h : ExceptionHandler} :
      body.At pc i → ¬ calm pc → h ∈ body.handlers → h.Covers pc →
      Flow body calm pc h.handler.toNat

/-- What control visits from offset 0 on. -/
inductive Path (body : CodeOf α) (calm : Nat → Prop) : List Visit → Prop
  | nil : Path body calm []
  | first {i : Instruction} : body.At 0 i → Path body calm [(0, i)]
  | step {visits : List Visit} {pc pc' : Nat} {i i' : Instruction} :
      Path body calm (visits ++ [(pc, i)]) → body.Flow calm pc pc' → body.At pc' i' →
      Path body calm (visits ++ [(pc, i)] ++ [(pc', i')])

/-- Control arrives at `pc` after some visits. -/
def Arrives (body : CodeOf α) (calm : Nat → Prop) (visits : List Visit) (pc : Nat) : Prop :=
  (visits = [] ∧ pc = 0) ∨
    ∃ front last, visits = front ++ [last] ∧ body.Path calm visits ∧ body.Flow calm last.1 pc

end CodeOf

/-! ### Offsets -/

namespace Body

/-- Instructions in a row from `pc` on with their offsets. -/
def located (pc : Nat) : List Instruction → List Visit
  | [] => []
  | i :: rest => (pc, i) :: located (pc + i.length) rest

/-- Instructions in two parts stand where those of the first part do, and the others behind them. -/
theorem located_append (pc : Nat) (front back : List Instruction) :
    located pc (front ++ back) = located pc front ++ located (pc + length front) back := by
  induction front generalizing pc with
  | nil => simp [located]
  | cons i rest ih => simp [located, ih, Nat.add_assoc]

end Body

namespace CodeOf

variable {α : Type} {body : CodeOf α} {calm : Nat → Prop}

/-- **At most one instruction** starts at an offset. -/
theorem At.unique {pc : Nat} {i j : Instruction} (hi : body.At pc i) (hj : body.At pc j) :
    i = j := by
  obtain ⟨before, after, hdecode, rfl⟩ := hi
  obtain ⟨before', after', hdecode', hlength⟩ := hj
  rw [hdecode] at hdecode'
  obtain ⟨-, heq⟩ := Body.eq_of_length_eq (Except.ok.inj hdecode') hlength.symm
  exact (List.cons.inj heq).1

/-- **A path goes on** exactly where control arrives and an instruction starts. -/
theorem path_concat_iff {visits : List Visit} {v : Visit} :
    body.Path calm (visits ++ [v]) ↔ body.Arrives calm visits v.1 ∧ body.At v.1 v.2 := by
  constructor
  · intro h
    generalize hall : visits ++ [v] = all at h
    cases h with
    | nil => simp at hall
    | first hat =>
      cases visits with
      | nil =>
        obtain rfl := (List.cons.inj hall).1
        exact ⟨.inl ⟨rfl, rfl⟩, hat⟩
      | cons => simp at hall
    | @step front pc pc' i i' hpath hflow hat =>
      obtain ⟨rfl, heq⟩ := List.append_inj' hall rfl
      obtain rfl : v = (pc', i') := by simpa using heq
      exact ⟨.inr ⟨front, (pc, i), rfl, hpath, hflow⟩, hat⟩
  · rintro ⟨⟨rfl, hpc⟩ | ⟨front, last, rfl, hpath, hflow⟩, hat⟩
    · obtain ⟨pc, i⟩ := v
      obtain rfl : pc = 0 := hpc
      exact Path.first hat
    · exact Path.step hpath hflow hat

/-- Control moves on behind an instruction that it passes, and nowhere else. -/
theorem flow_iff_of_passes {pc target : Nat} {i : Instruction} (hat : body.At pc i)
    (hpasses : i.Passes) (hcalm : calm pc) :
    body.Flow calm pc target ↔ target = pc + i.length := by
  constructor
  · intro h
    cases h with
    | next hat' =>
      rw [hat.unique hat']
    | jump hat' hmem =>
      rw [← hat.unique hat', hpasses.distances] at hmem
      cases hmem
    | subroutineEnd hat' hends =>
      rw [← hat.unique hat', hpasses.endsSubroutine] at hends
      cases hends
    | raise _ hnot => exact absurd hcalm hnot
  · rintro rfl
    exact .next hat hpasses.fallsThrough

/-- Control arrives where it moves to from the last visit of a path. -/
theorem arrives_concat_iff {visits : List Visit} {v : Visit} {target : Nat} :
    body.Arrives calm (visits ++ [v]) target
      ↔ body.Path calm (visits ++ [v]) ∧ body.Flow calm v.1 target := by
  constructor
  · rintro (⟨hnil, -⟩ | ⟨front, last, heq, hpath, hflow⟩)
    · simp at hnil
    · obtain ⟨-, hlast⟩ := List.append_inj' heq rfl
      obtain rfl : v = last := by simpa using hlast
      exact ⟨hpath, hflow⟩
  · rintro ⟨hpath, hflow⟩
    exact .inr ⟨visits, v, rfl, hpath, hflow⟩

/-- A path that arrives somewhere is a path. -/
theorem Arrives.path {visits : List Visit} {pc : Nat} (h : body.Arrives calm visits pc) :
    body.Path calm visits := by
  obtain ⟨rfl, -⟩ | ⟨_, _, -, hpath, -⟩ := h
  · exact Path.nil
  · exact hpath

@[simp] theorem arrives_nil_iff {pc : Nat} : body.Arrives calm [] pc ↔ pc = 0 := by
  simp [Arrives]

/-- **Control passes** instructions in a row: it arrives behind them after visiting them if it
arrives in front of them. -/
theorem arrives_located_iff {visits : List Visit} {pc : Nat} {instructions : List Instruction}
    (h : ∀ p j q, instructions = p ++ j :: q →
      body.At (pc + Body.length p) j ∧ j.Passes ∧ calm (pc + Body.length p)) :
    body.Arrives calm (visits ++ Body.located pc instructions) (pc + Body.length instructions)
      ↔ body.Arrives calm visits pc := by
  induction instructions using List.reverseRecOn with
  | nil => simp [Body.located]
  | append_singleton p j ih =>
    obtain ⟨hat, hpasses, hcalm⟩ := h p j [] rfl
    have hfront : ∀ p' j' q', p = p' ++ j' :: q' →
        body.At (pc + Body.length p') j' ∧ j'.Passes ∧ calm (pc + Body.length p') := by
      rintro p' j' q' rfl
      exact h p' j' (q' ++ [j]) (by simp)
    rw [Body.located_append, ← List.append_assoc, Body.located, Body.located, arrives_concat_iff,
      path_concat_iff, ih hfront, flow_iff_of_passes hat hpasses hcalm]
    simp [hat, Nat.add_assoc]

end CodeOf

end AdviceWeaver

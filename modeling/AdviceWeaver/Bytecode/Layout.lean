import AdviceWeaver.Bytecode.Body

/-!
# Where instructions land

Hook calls are put in front of a body and in front of each of its return instructions, and
everything behind them moves. A `Layout` says where each instruction of the old body lands in the
new one: its `start` includes the exit calls in front of a return, so that a jump onto a return runs
them.

The calls in front of the body are followed by as many instructions that do nothing as bring the old
offset 0 to a multiple of four, so that no switch is padded anew on their account.
-/

namespace AdviceWeaver

/-- The hooks of one body, as the constants of the static methods to call. -/
structure HookRefs where
  /-- Called in this order before the first instruction. -/
  enter : List UInt16
  /-- Called in this order before every return instruction. -/
  exit : List UInt16
deriving DecidableEq, Repr, Inhabited

namespace HookRefs

/-- Whether no hook is called at all. -/
def isEmpty (hooks : HookRefs) : Bool :=
  hooks.enter.isEmpty && hooks.exit.isEmpty

/-- What runs before the first instruction. -/
def prologue (hooks : HookRefs) : List Instruction :=
  hooks.enter.map Instruction.call
    ++ List.replicate ((4 - 3 * hooks.enter.length % 4) % 4) Instruction.nop

/-- What runs before a return. -/
def exitCalls (hooks : HookRefs) : List Instruction :=
  hooks.exit.map Instruction.call

end HookRefs

/-- The same instruction at the offset `pc`, where a switch needs zeros of its own as padding. -/
def Instruction.repad (pc : Nat) : Instruction → Instruction
  | .tableSwitch _ default low high distances =>
    .tableSwitch (List.replicate (switchPadding pc) 0) default low high distances
  | .lookupSwitch _ default cases =>
    .lookupSwitch (List.replicate (switchPadding pc) 0) default cases
  | i => i

/-- Where an instruction stood and where it lands. -/
structure Site where
  /-- Its offset in the old body. -/
  pc : Nat
  /-- The offset in the new body of the first octet that belongs to it, exit calls included. -/
  start : Nat
  /-- Its offset in the new body. -/
  newPc : Nat
  /-- The instruction, padded for its new offset; its distances are still the old ones. -/
  instruction : Instruction
deriving Repr, Inhabited

/-- The landing places of the instructions of one body. -/
structure Layout where
  oldLength : Nat
  newLength : Nat
  sites : List Site
  /-- By old offset, the `start` of the instruction there. -/
  starts : Array (Option Nat)
deriving Repr, Inhabited

namespace Layout

/-- Places an instruction from `pc` of the old body at the end of the new one. -/
def place (exitLength pc newEnd : Nat) (i : Instruction) : Site :=
  let newPc := if i.isReturn then newEnd + exitLength else newEnd
  { pc, start := newEnd, newPc, instruction := i.repad newPc }

/-- Places instructions one behind the other from `pc` and `newEnd` on, behind the sites of `done`,
which are kept in reverse; gives the new end too. -/
def placeOnto (exitLength : Nat) (pc newEnd : Nat) (done : List Site) :
    List Instruction → List Site × Nat
  | [] => (done.reverse, newEnd)
  | i :: rest =>
    let site := place exitLength pc newEnd i
    placeOnto exitLength (pc + i.length) (site.newPc + site.instruction.length) (site :: done) rest

/-- The entries of `starts` for an instruction: its own offset, and nothing inside it. -/
def startEntries (instructions : List Instruction) (sites : List Site) : List (Option Nat) :=
  (instructions.zip sites).flatMap fun (i, site) =>
    some site.start :: List.replicate (i.length - 1) none

/-- The layout of a body with hook calls inserted. -/
def of (instructions : List Instruction) (hooks : HookRefs) : Layout :=
  let (sites, newLength) :=
    placeOnto (Body.length hooks.exitCalls) 0 (Body.length hooks.prologue) []
    instructions
  { oldLength := Body.length instructions
    newLength
    sites
    starts := (startEntries instructions sites).toArray }

/-- The new offset for an old one: that of the instruction there, or the new end for the old end. -/
def map? (layout : Layout) (old : Nat) : Option Nat :=
  if old = layout.oldLength then some layout.newLength else (layout.starts[old]?).join

/-- The new offset for `old`, which the item at `at_` refers to. -/
def map (layout : Layout) (at_ : Nat) (old : UInt16) : Except WeaveError UInt16 :=
  match layout.map? old.toNat with
  | some new => .ok (UInt16.ofNat new)
  | none => .error (.badTarget at_ old.toNat)

/-- The new offset of the target at a distance from `pc`, which has to be an instruction. -/
def mapTarget (layout : Layout) (pc : Nat) (distance : Int) : Except WeaveError Nat :=
  let target : Int := pc + distance
  if target < 0 ∨ (layout.oldLength : Int) ≤ target then .error (.badTarget pc target)
  else
    match layout.map? target.toNat with
    | some new => .ok new
    | none => .error (.badTarget pc target)

end Layout

end AdviceWeaver

import AdviceWeaver.Proofs.Bytecode.Moving
import AdviceWeaver.Proofs.Bytecode.Simulation

/-!
# Listings of bodies

A body that hooks were put into, be it once or several times, is listed with the role that every
instruction has: the method's own, the call of a hook, or alignment. Alignment does nothing and does
not count, so that a place in the body has a position, which is the number of instructions that count
in front of it (`Listing.Stands`). Offsets depend on the alignment, positions do not.

An `Insertion` is what stands in front of a body and in front of its returns, however it came there.
It rebuilds a body as hooks do (`Insertion.Rebuilds`): a place in front of, between or behind the old
instructions lands at a place of the new body.

## Main results

* `Insertion.Lands.new_unique` — an old offset lands at one place.
* `Insertion.Lands.stands` — the position of where it lands.
-/

namespace AdviceWeaver

/-- What an instruction of a body is there for. -/
inductive Role where
  /-- It is one of the method's own. -/
  | own
  /-- It calls a hook. -/
  | hook
  /-- It brings what is behind it to a multiple of four. -/
  | alignment
deriving DecidableEq, Repr

/-- The instructions of a body with their roles. -/
abbrev Listing := List (Instruction × Role)

namespace Listing

/-- The instructions of a listing. -/
def instructions (listing : Listing) : List Instruction :=
  listing.map Prod.fst

/-- What counts of a listing: everything but alignment. -/
def counted (listing : Listing) : Listing :=
  listing.filter fun entry => entry.2 ≠ .alignment

/-- The entries of a listing with their offsets, the first one being at `pc`. -/
def placedFrom (pc : Nat) : Listing → List (Nat × Instruction × Role)
  | [] => []
  | entry :: rest => (pc, entry) :: placedFrom (pc + entry.1.length) rest

/-- What counts of a listing, with its offsets. -/
def countedFrom (pc : Nat) (listing : Listing) : List (Nat × Instruction × Role) :=
  (placedFrom pc listing).filter fun entry => entry.2.2 ≠ .alignment

/-- In front of `offset` are as many instructions that count as `position` says. -/
def Stands (listing : Listing) (offset position : Nat) : Prop :=
  ∃ front back, listing = front ++ back ∧ offset = Body.length (instructions front)
    ∧ position = (counted front).length

/-- An offset of one body and one of another are the same position. -/
def SamePosition (listing listing' : Listing) (offset offset' : Nat) : Prop :=
  ∃ position, listing.Stands offset position ∧ listing'.Stands offset' position

/-- Entries of two listings agree: both call a hook, and `calls` tells that it is the same, or both
are the same instruction of the method and lead to places that `R` relates. -/
inductive EntriesAgree (calls : Instruction → Instruction → Prop) (R : Nat → Nat → Prop) :
    Nat × Instruction × Role → Nat × Instruction × Role → Prop
  | hook {pc pc' : Nat} {i i' : Instruction} : calls i i' →
      EntriesAgree calls R (pc, i, .hook) (pc', i', .hook)
  | own {pc pc' : Nat} {i i' : Instruction} : i'.skeleton = i.skeleton →
      DistancesMoved R pc pc' i.distances i'.distances →
      EntriesAgree calls R (pc, i, .own) (pc', i', .own)

/-! ### Listings in a row -/

@[simp] theorem instructions_nil : instructions [] = [] := rfl

@[simp] theorem instructions_append (front back : Listing) :
    instructions (front ++ back) = instructions front ++ instructions back :=
  List.map_append

@[simp] theorem counted_append (front back : Listing) :
    counted (front ++ back) = counted front ++ counted back :=
  List.filter_append front back

/-- The entries of a listing in two parts stand where those of the first do, and the others behind. -/
theorem placedFrom_append (pc : Nat) (front back : Listing) :
    placedFrom pc (front ++ back)
      = placedFrom pc front ++ placedFrom (pc + Body.length (instructions front)) back := by
  induction front generalizing pc with
  | nil => simp [placedFrom]
  | cons entry rest ih =>
    simp only [List.cons_append, placedFrom, ih, instructions, List.map_cons, Body.length_cons,
      Nat.add_assoc]

/-- What counts of a listing in two parts stands where its parts have it. -/
theorem countedFrom_append (pc : Nat) (front back : Listing) :
    countedFrom pc (front ++ back)
      = countedFrom pc front ++ countedFrom (pc + Body.length (instructions front)) back := by
  rw [countedFrom, placedFrom_append, List.filter_append]
  rfl

/-- Offsets aside, what counts is what counts. -/
theorem map_snd_countedFrom (pc : Nat) (listing : Listing) :
    (countedFrom pc listing).map Prod.snd = counted listing := by
  have hplaced (pc : Nat) (listing : Listing) : (placedFrom pc listing).map Prod.snd = listing := by
    induction listing generalizing pc with
    | nil => rfl
    | cons entry rest ih => rw [placedFrom, List.map_cons, ih]
  rw [counted, ← hplaced pc listing, List.filter_map, hplaced]
  rfl

end Listing

/-! ### Insertions -/

/-- What is put into a body. -/
structure Insertion where
  /-- What is put in front of the body. -/
  prologue : Listing
  /-- What is put in front of every return. -/
  exits : Listing

namespace Insertion

variable (x : Insertion)

/-- What is put in front of an instruction. -/
def before (i : Instruction) : Listing :=
  if i.isReturn then x.exits else []

/-- An instruction with what is put in front of it. -/
def around (i : Instruction) : Listing :=
  x.before i ++ [(i, .own)]

/-- Instructions with everything that is put in. -/
def weave (instructions : List Instruction) : Listing :=
  x.prologue ++ instructions.flatMap x.around

/-- The offset of the new body behind some instructions. -/
def newEnd (pairs : List Replacement) : Nat :=
  Body.length (x.weave (pairs.map Prod.snd)).instructions

/-- The offset of a new instruction behind some others. -/
def newPc (front : List Replacement) (pair : Replacement) : Nat :=
  x.newEnd front + Body.length (x.before pair.2).instructions

/-- Control at the offset `old` of the old body is control at the offset `new` of the new one. -/
def Lands (pairs : List Replacement) (old new : Nat) : Prop :=
  ∃ front back, pairs = front ++ back ∧ old = oldEnd front ∧ new = x.newEnd front

/-- The body `new` is `old` with the insertion, its instructions being replaced as `pairs` say and
its tables being moved. -/
structure Rebuilds (pairs : List Replacement) (old new : Code) : Prop where
  decode_old : Body.decode old.code = .ok (pairs.map Prod.fst)
  decode_new : Body.decode new.code = .ok (x.weave (pairs.map Prod.snd)).instructions
  skeleton {pair : Replacement} : pair ∈ pairs → pair.2.skeleton = pair.1.skeleton
  distances {front back : List Replacement} {pair : Replacement} :
    pairs = front ++ pair :: back →
    DistancesMoved (x.Lands pairs) (oldEnd front) (x.newPc front pair) pair.1.distances
      pair.2.distances
  tables : TablesMoved (x.Lands pairs) old new

variable {x}

/-- What is put into a body in two parts is put into the parts. -/
theorem weave_append (front back : List Instruction) :
    x.weave (front ++ back) = x.weave front ++ back.flatMap x.around := by
  simp [weave]

/-- The new body in two parts ends where the second part does. -/
theorem newEnd_append (front back : List Replacement) :
    x.newEnd (front ++ back)
      = x.newEnd front + Body.length (Listing.instructions ((back.map Prod.snd).flatMap x.around)) := by
  simp [newEnd, weave_append]

/-- One instruction more ends as far behind its own offset as it is long. -/
theorem newEnd_concat (front : List Replacement) (pair : Replacement) :
    x.newEnd (front ++ [pair]) = x.newPc front pair + pair.2.length := by
  simp [newEnd_append, newPc, around, Listing.instructions, Nat.add_assoc]

namespace Lands

variable {pairs front back : List Replacement} {old new new' : Nat}

theorem of_split (h : pairs = front ++ back) : x.Lands pairs (oldEnd front) (x.newEnd front) :=
  ⟨front, back, h, rfl, rfl⟩

/-- An old offset lands at one place. -/
theorem new_unique (h : x.Lands pairs old new) (h' : x.Lands pairs old new') : new = new' := by
  obtain ⟨front, back, hfront, hold, rfl⟩ := h
  obtain ⟨front', back', hfront', hold', rfl⟩ := h'
  rw [eq_of_oldEnd_eq ⟨back, hfront.symm⟩ ⟨back', hfront'.symm⟩ (hold.symm.trans hold')]

/-- The place behind some instructions has the position that these give it. -/
theorem stands (h : pairs = front ++ back) :
    (x.weave (pairs.map Prod.snd)).Stands (x.newEnd front)
      (x.weave (front.map Prod.snd)).counted.length :=
  ⟨_, (back.map Prod.snd).flatMap x.around, by rw [h, List.map_append, weave_append], rfl, rfl⟩

end Lands

end Insertion

end AdviceWeaver

import AdviceWeaver.Proofs.Bytecode.ControlFlow
import AdviceWeaver.Proofs.Sequencing

/-!
# Offsets that move

When instructions are put into a body, others move, and a relation tells which new offset belongs to
an old one. Whatever holds offsets moves with them: the distances of an instruction
(`DistancesMoved`), exception handlers (`ExceptionHandler.Moved`), line numbers and local variables
(`LineEntry.Moved`, `VariableEntry.Moved`) and stack map frames (`StackFrame.Moved`), which say where
they stand by the distance from the frame before.

Nothing here depends on how offsets move, so a move may be taken back and two moves may be put
together: what holds of the offsets holds of all that holds them.

## Main results

* `DistancesMoved.comp`, `TablesMoved.comp` — moves put together.
* `DistancesMoved.flip`, `TablesMoved.flip` — moves taken back.
-/

namespace AdviceWeaver

variable {R S T : Nat → Nat → Prop}

/-! ### Distances -/

/-- The distances `ds'` lead from `pc'` to where the targets of `ds` from `pc` moved. -/
def DistancesMoved (R : Nat → Nat → Prop) (pc pc' : Nat) (ds ds' : List Int) : Prop :=
  List.Forall₂
    (fun d d' => ∃ target target', R target target' ∧ (target : Int) = pc + d
      ∧ (target' : Int) = pc' + d') ds ds'

namespace DistancesMoved

variable {pc pc' pc'' : Nat} {ds ds' ds'' : List Int}

/-- Distances that moved have moved back by the reverse relation. -/
theorem flip (h : DistancesMoved R pc pc' ds ds') :
    DistancesMoved (fun new old => R old new) pc' pc ds' ds :=
  List.Forall₂.flip (h.imp fun _ _ ⟨target, target', hR, heq, heq'⟩ =>
    ⟨target', target, hR, heq', heq⟩)

/-- Distances that moved twice have moved by the relation of both, as the targets in between are the
same. -/
theorem comp (hcomp : ∀ a b c, R a b → S b c → T a c) (h : DistancesMoved R pc pc' ds ds')
    (h' : DistancesMoved S pc' pc'' ds' ds'') : DistancesMoved T pc pc'' ds ds'' := by
  refine forall₂_comp h h' ?_
  rintro d d' d'' ⟨target, target', hR, heq, heq'⟩ ⟨target₁, target'', hS, heq₁, heq''⟩
  obtain rfl : target' = target₁ := by omega
  exact ⟨target, target'', hcomp _ _ _ hR hS, heq, heq''⟩

end DistancesMoved

/-! ### Exception handlers -/

/-- The handler `h'` is `h`, moved. -/
structure ExceptionHandler.Moved (R : Nat → Nat → Prop) (h h' : ExceptionHandler) : Prop where
  start : R h.start.toNat h'.start.toNat
  stop : R h.stop.toNat h'.stop.toNat
  handler : R h.handler.toNat h'.handler.toNat
  catchType : h.catchType = h'.catchType

namespace ExceptionHandler.Moved

variable {h h' h'' : ExceptionHandler}

/-- A handler that moved has moved back by the reverse relation. -/
theorem flip (hmoved : h.Moved R h') : h'.Moved (fun new old => R old new) h :=
  ⟨hmoved.start, hmoved.stop, hmoved.handler, hmoved.catchType.symm⟩

/-- A handler that moved twice has moved by the relation of both. -/
theorem comp (hcomp : ∀ a b c, R a b → S b c → T a c) (hmoved : h.Moved R h')
    (hmoved' : h'.Moved S h'') : h.Moved T h'' :=
  ⟨hcomp _ _ _ hmoved.start hmoved'.start, hcomp _ _ _ hmoved.stop hmoved'.stop,
    hcomp _ _ _ hmoved.handler hmoved'.handler, hmoved.catchType.trans hmoved'.catchType⟩

/-- A handler that moved has also moved by a relation that holds more often. -/
theorem mono (hRS : ∀ a b, R a b → S a b) (hmoved : h.Moved R h') : h.Moved S h' :=
  ⟨hRS _ _ hmoved.start, hRS _ _ hmoved.stop, hRS _ _ hmoved.handler, hmoved.catchType⟩

end ExceptionHandler.Moved

/-! ### Stack map frames -/

namespace VerificationType

/-- The type without the offset that it may name. -/
def skeleton : VerificationType → VerificationType
  | .uninitialized _ => .uninitialized 0
  | type => type

/-- The offset that the type names: where the value was made. -/
def origin? : VerificationType → Option Nat
  | .uninitialized pc => some pc.toNat
  | _ => none

end VerificationType

namespace StackFrame

/-- What a frame says, wherever it stands: its kind, not told apart by how far the distance may be,
and the types without offsets. -/
def skeleton : StackFrame → StackFrame
  | .same _ | .sameExtended _ => .same 0
  | .oneItem _ item | .oneItemExtended _ item => .oneItem 0 item.skeleton
  | .chop _ locals => .chop 0 locals
  | .append _ locals => .append 0 (locals.map VerificationType.skeleton)
  | .full _ locals stack =>
    .full 0 (locals.map VerificationType.skeleton) (stack.map VerificationType.skeleton)

/-- The types that a frame lists, those of local variables first. -/
def types : StackFrame → List VerificationType
  | .oneItem _ item | .oneItemExtended _ item => [item]
  | .append _ locals => locals
  | .full _ locals stack => locals ++ stack
  | .same _ | .sameExtended _ | .chop .. => []

/-- The offsets that the types of a frame name. -/
def origins (frame : StackFrame) : List Nat :=
  frame.types.filterMap VerificationType.origin?

/-- Frames with the offsets where they stand, distances counting from `next` on. -/
def placedFrom (next : Nat) : List StackFrame → List (Nat × StackFrame)
  | [] => []
  | frame :: rest =>
    (next + frame.delta.toNat, frame) :: placedFrom (next + frame.delta.toNat + 1) rest

/-- A frame at its offset is another one, moved. -/
structure Moved (R : Nat → Nat → Prop) (f f' : Nat × StackFrame) : Prop where
  offset : R f.1 f'.1
  skeleton : f'.2.skeleton = f.2.skeleton
  origins : List.Forall₂ R f.2.origins f'.2.origins

namespace Moved

variable {f f' f'' : Nat × StackFrame}

/-- A frame that moved has moved back by the reverse relation. -/
theorem flip (h : Moved R f f') : Moved (fun new old => R old new) f' f :=
  ⟨h.offset, h.skeleton.symm, List.Forall₂.flip h.origins⟩

/-- A frame that moved twice has moved by the relation of both. -/
theorem comp (hcomp : ∀ a b c, R a b → S b c → T a c) (h : Moved R f f')
    (h' : Moved S f' f'') : Moved T f f'' :=
  ⟨hcomp _ _ _ h.offset h'.offset, h'.skeleton.trans h.skeleton,
    forall₂_comp h.origins h'.origins hcomp⟩

/-- A frame that moved has also moved by a relation that holds more often. -/
theorem mono (hRS : ∀ a b, R a b → S a b) (h : Moved R f f') : Moved S f f' :=
  ⟨hRS _ _ h.offset, h.skeleton, h.origins.imp hRS⟩

end Moved

/-- A table of frames is another one, moved. -/
def TableMoved (R : Nat → Nat → Prop) (frames frames' : List StackFrame) : Prop :=
  List.Forall₂ (Moved R) (placedFrom 0 frames) (placedFrom 0 frames')

namespace TableMoved

variable {frames frames' frames'' : List StackFrame}

/-- A table of frames that moved has moved back by the reverse relation. -/
theorem flip (h : TableMoved R frames frames') :
    TableMoved (fun new old => R old new) frames' frames :=
  List.Forall₂.flip (List.Forall₂.imp (fun _ _ => Moved.flip) h)

/-- A table of frames that moved twice has moved by the relation of both. -/
theorem comp (hcomp : ∀ a b c, R a b → S b c → T a c) (h : TableMoved R frames frames')
    (h' : TableMoved S frames' frames'') : TableMoved T frames frames'' :=
  forall₂_comp h h' fun _ _ _ => Moved.comp hcomp

/-- A table of frames that moved has also moved by a relation that holds more often. -/
theorem mono (hRS : ∀ a b, R a b → S a b) (h : TableMoved R frames frames') :
    TableMoved S frames frames' :=
  List.Forall₂.imp (fun _ _ => Moved.mono hRS) h

end TableMoved

end StackFrame

/-! ### Line numbers and local variables -/

/-- The line entry `e'` is `e`, moved. -/
structure LineEntry.Moved (R : Nat → Nat → Prop) (e e' : LineEntry) : Prop where
  start : R e.start.toNat e'.start.toNat
  line : e'.line = e.line

/-- A line that moved has also moved by a relation that holds more often. -/
theorem LineEntry.Moved.mono {e e' : LineEntry} (hRS : ∀ a b, R a b → S a b) (h : e.Moved R e') :
    e.Moved S e' :=
  ⟨hRS _ _ h.start, h.line⟩

/-- The offset behind the code in which the variable is live. -/
def VariableEntry.stop (e : VariableEntry) : Nat :=
  e.start.toNat + e.length.toNat

/-- The variable entry `e'` is `e`, moved: from where its range starts to where it stops. -/
structure VariableEntry.Moved (R : Nat → Nat → Prop) (e e' : VariableEntry) : Prop where
  start : R e.start.toNat e'.start.toNat
  stop : R e.stop e'.stop
  name : e'.name = e.name
  descriptor : e'.descriptor = e.descriptor
  slot : e'.slot = e.slot

/-- A variable that moved has also moved by a relation that holds more often. -/
theorem VariableEntry.Moved.mono {e e' : VariableEntry} (hRS : ∀ a b, R a b → S a b)
    (h : e.Moved R e') : e.Moved S e' :=
  ⟨hRS _ _ h.start, hRS _ _ h.stop, h.name, h.descriptor, h.slot⟩

/-! ### The tables of a body -/

/-- The frames of a content, if it is a table of them. -/
def ContentOf.frames? {α : Type} : ContentOf α → Option (List StackFrame)
  | .stackMapTable frames => some frames
  | _ => none

/-- The tables of stack map frames among some attributes. -/
def frameTables (attributes : List Attribute) : List (List StackFrame) :=
  attributes.filterMap fun a => a.content.frames?

/-- The exception handlers and the stack map frames of `body'` are those of `body`, moved. -/
structure TablesMoved (R : Nat → Nat → Prop) (body body' : Code) : Prop where
  handlers : List.Forall₂ (ExceptionHandler.Moved R) body.handlers body'.handlers
  frames : List.Forall₂ (StackFrame.TableMoved R) (frameTables body.attributes)
    (frameTables body'.attributes)

namespace TablesMoved

variable {body body' body'' : Code}

/-- The tables of a body that moved have moved back by the reverse relation. -/
theorem flip (h : TablesMoved R body body') : TablesMoved (fun new old => R old new) body' body :=
  ⟨List.Forall₂.flip (h.handlers.imp fun _ _ => ExceptionHandler.Moved.flip),
    List.Forall₂.flip (h.frames.imp fun _ _ => StackFrame.TableMoved.flip)⟩

/-- The tables of a body that moved twice have moved by the relation of both. -/
theorem comp (hcomp : ∀ a b c, R a b → S b c → T a c) (h : TablesMoved R body body')
    (h' : TablesMoved S body' body'') : TablesMoved T body body'' :=
  ⟨forall₂_comp h.handlers h'.handlers fun _ _ _ => ExceptionHandler.Moved.comp hcomp,
    forall₂_comp h.frames h'.frames fun _ _ _ => StackFrame.TableMoved.comp hcomp⟩

end TablesMoved

end AdviceWeaver

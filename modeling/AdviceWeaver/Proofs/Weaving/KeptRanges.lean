import AdviceWeaver.Proofs.Bytecode.Simulation
import AdviceWeaver.Proofs.Weaving.NewAttributes

/-!
# Ranges of a body with hooks

Exception handlers, local variables and line numbers say something of a range of offsets. In a body
with hooks they say it of the same instructions, and of the exit calls in front of a return exactly
what they say of the return (`HookRefs.SameAt`). They say nothing of the prologue.

## Main results

* `HookRefs.keepsLines_of_moved` — line numbers that move as control lands.
* `CodeOf.keepsRanges_insertHooks` — handlers, variables and line numbers of a body with hooks.
-/

namespace AdviceWeaver

/-- The variable is live at an offset. -/
def VariableEntry.LiveAt (e : VariableEntry) (pc : Nat) : Prop :=
  e.start.toNat ≤ pc ∧ pc < e.stop

namespace LineEntry

/-- The entry starts at `pc` or in front of it, and no entry starts between. -/
def LastAt (entries : List LineEntry) (pc : Nat) (e : LineEntry) : Prop :=
  e.start.toNat ≤ pc ∧ ∀ other ∈ entries, other.start.toNat ≤ pc → other.start.toNat ≤ e.start.toNat

instance (entries : List LineEntry) (pc : Nat) (e : LineEntry) : Decidable (LastAt entries pc e) :=
  inferInstanceAs (Decidable (_ ∧ _))

/-- The line of an offset: that of the entry with the greatest start not behind it. All lines in the
order of the entries, should several have the same start; none in front of all entries. -/
def linesAt (entries : List LineEntry) (pc : Nat) : List UInt16 :=
  (entries.filter fun e => LastAt entries pc e).map line

/-- No line is told of an offset in front of all entries. -/
theorem linesAt_eq_nil {entries : List LineEntry} {pc : Nat}
    (h : ∀ e ∈ entries, pc < e.start.toNat) : linesAt entries pc = [] := by
  rw [linesAt, List.map_eq_nil_iff, List.filter_eq_nil_iff]
  intro e he hlast
  exact absurd (of_decide_eq_true hlast).1 (Nat.not_le.2 (h e he))

end LineEntry

/-! ### What is said of instructions -/

namespace HookRefs

variable (hooks : HookRefs) (pairs : List Replacement)

/-- What `old` says of an instruction of the old body, `new` says of it in the new one, and of every
offset of the exit calls in front of it. -/
def SameAt {α : Type*} (old new : Nat → α) : Prop :=
  ∀ before pair after, pairs = before ++ pair :: after →
    ∀ pc, hooks.newEnd before ≤ pc → pc ≤ hooks.newPc before pair → new pc = old (oldEnd before)

/-- The handler `h'` protects what `h` protected. -/
structure KeepsHandler (h h' : ExceptionHandler) : Prop where
  covers : hooks.SameAt pairs h.Covers h'.Covers
  prologue {pc : Nat} : pc < Body.length hooks.prologue → ¬ h'.Covers pc
  handler : hooks.Lands pairs h.handler.toNat h'.handler.toNat
  catchType : h'.catchType = h.catchType

/-- The entry `e'` is for the variable of `e`, live where this was. -/
structure KeepsVariable (e e' : VariableEntry) : Prop where
  live : hooks.SameAt pairs e.LiveAt e'.LiveAt
  name : e'.name = e.name
  descriptor : e'.descriptor = e.descriptor
  slot : e'.slot = e.slot

/-- By `entries'`, instructions have the lines that they had by `entries`. -/
structure KeepsLines (entries entries' : List LineEntry) : Prop where
  lines : hooks.SameAt pairs (LineEntry.linesAt entries) (LineEntry.linesAt entries')
  prologue {pc : Nat} : pc < Body.length hooks.prologue → LineEntry.linesAt entries' pc = []

variable {hooks pairs}

/-- A handler that moved covers the old instructions that it did, and none that was put in front of
them. -/
theorem keepsHandler_of_moved {h h' : ExceptionHandler} (hmoved : h.Moved (hooks.Lands pairs) h') :
    hooks.KeepsHandler pairs h h' where
  covers _ _ _ hpair _ hle hpc := propext (range_iff hpair hmoved.start hmoved.stop hle hpc)
  prologue hpc hcovers := by
    have hstart := hmoved.start.prologue_le
    have hle := hcovers.1
    omega
  handler := hmoved.handler
  catchType := hmoved.catchType.symm

/-- A variable that moved is visible where it was. -/
theorem keepsVariable_of_moved {e e' : VariableEntry} (hmoved : e.Moved (hooks.Lands pairs) e') :
    hooks.KeepsVariable pairs e e' where
  live _ _ _ hpair _ hle hpc := propext (range_iff hpair hmoved.start hmoved.stop hle hpc)
  name := hmoved.name
  descriptor := hmoved.descriptor
  slot := hmoved.slot

/-- **Line numbers** that move as control lands: which entries start last depends on the order of
places only. -/
theorem keepsLines_of_moved {entries entries' : List LineEntry}
    (h : List.Forall₂ (LineEntry.Moved (hooks.Lands pairs)) entries entries') :
    hooks.KeepsLines pairs entries entries' where
  lines before pair after hpair pc hle hpc := by
    -- other entries are in front of the instruction, and in front of this one, in both bodies or in none
    have hlast {e e' : LineEntry} (he : e.Moved (hooks.Lands pairs) e') :
        LineEntry.LastAt entries (oldEnd before) e ↔ LineEntry.LastAt entries' pc e' := by
      unfold LineEntry.LastAt
      rw [he.start.le_iff hpair hle hpc]
      refine and_congr_right fun _ => ⟨fun hold other hother => ?_, fun hnew other hother => ?_⟩
      · obtain ⟨e₁, he₁, hmoved⟩ := exists_of_forall₂_right h hother
        rw [hmoved.start.le_iff hpair hle hpc, hmoved.start.le_iff_le he.start]
        exact hold e₁ he₁
      · obtain ⟨e₁, he₁, hmoved⟩ := exists_of_forall₂_left h hother
        rw [← hmoved.start.le_iff hpair hle hpc, ← hmoved.start.le_iff_le he.start]
        exact hnew e₁ he₁
    refine (map_eq_map_of_forall₂ (List.rel_filter ?_ h) fun _ _ he => he.line.symm).symm
    intro e e' he
    simpa using hlast he
  prologue hpc := LineEntry.linesAt_eq_nil fun e' he' => by
    obtain ⟨e, -, hmoved⟩ := exists_of_forall₂_right h he'
    exact Nat.lt_of_lt_of_le hpc hmoved.start.prologue_le

end HookRefs

/-! ### The tables of a body -/

/-- The line entries of a content. -/
def ContentOf.lines {α : Type} : ContentOf α → List LineEntry
  | .lineNumberTable entries => entries
  | _ => []

/-- The line entries of a new attribute. -/
def NewAttribute.lines : NewAttribute → List LineEntry
  | .lineTable _ entries => entries
  | _ => []

/-- What is written for a table of variables or lines says the same of instructions. -/
def HookRefs.KeepsTable (hooks : HookRefs) (pairs : List Replacement) (a : Attribute)
    (a' : NewAttribute) : Prop :=
  match a.content with
  | .localVariableTable entries | .localVariableTypeTable entries =>
    ∃ entries', a' = .variableTable a.name entries'
      ∧ List.Forall₂ (hooks.KeepsVariable pairs) entries entries'
  | .lineNumberTable entries =>
    ∃ entries', a' = .lineTable a.name entries' ∧ hooks.KeepsLines pairs entries entries'
  | _ => True

/-- The body `new` is `body` with hooks, and its handlers, variables and lines are those of the same
instructions. -/
structure CodeOf.KeepsRanges (hooks : HookRefs) (pairs : List Replacement) (body : Code)
    (new : CodeOf NewAttribute) : Prop where
  decode_old : Body.decode body.code = .ok (pairs.map Prod.fst)
  decode_new : Body.decode new.code = .ok (hooks.weave (pairs.map Prod.snd))
  handlers : List.Forall₂ (hooks.KeepsHandler pairs) body.handlers new.handlers
  tables :
    List.Forall₂ (hooks.KeepsTable pairs) (body.attributes.filter Attribute.isKept) new.attributes
  /-- All tables of lines together. -/
  lines :
    hooks.KeepsLines pairs
      ((body.attributes.filter Attribute.isKept).flatMap fun a => a.content.lines)
      (new.attributes.flatMap NewAttribute.lines)

section Rewritten

variable {hooks : HookRefs} {pairs : List Replacement} {classBytes : Bytes} {a : Attribute}
  {a' : NewAttribute}

/-- The lines of a rewritten table moved. -/
theorem Attribute.Rewritten.lines {R : Nat → Nat → Prop} {V : VariableEntry → VariableEntry → Prop}
    (h : a.Rewritten classBytes R V a') :
    List.Forall₂ (LineEntry.Moved R) a.content.lines a'.lines := by
  cases h with
  | lineTable hentries => exact hentries
  | @copied _ _ content _ htable =>
    cases content with
    | lineNumberTable => cases htable
    | _ => exact .nil
  | _ => exact .nil

/-- A rewritten table keeps the lines and the variables of the old instructions. -/
theorem Attribute.Rewritten.keepsTable
    (h : a.Rewritten classBytes (hooks.Lands pairs) (VariableEntry.Moved (hooks.Lands pairs)) a') :
    hooks.KeepsTable pairs a a' := by
  cases h with
  | frameTable => trivial
  | lineTable hentries => exact ⟨_, rfl, HookRefs.keepsLines_of_moved hentries⟩
  | variableTable hentries | variableTypeTable hentries =>
    exact ⟨_, rfl, hentries.imp fun _ _ => HookRefs.keepsVariable_of_moved⟩
  | @copied _ _ content _ htable =>
    cases content with
    | lineNumberTable | localVariableTable | localVariableTypeTable => cases htable
    | _ => trivial

end Rewritten

/-- **Handlers, variables and lines** of a body are those of the same instructions when hooks are
inserted. -/
theorem CodeOf.keepsRanges_insertHooks {body : Code} {classBytes out : Bytes} {hooks : HookRefs}
    (h : body.insertHooks classBytes hooks = .ok out) :
    ∃ (pairs : List Replacement) (new : CodeOf NewAttribute),
      out = new.write ∧ KeepsRanges hooks pairs body new := by
  obtain ⟨pairs, new, rfl, hnew⟩ := CodeOf.rewrites_of_insertHooks h
  refine ⟨pairs, new, rfl, hnew.rebuilt.decode_old, hnew.rebuilt.decode_new,
    hnew.rebuilt.handlers_moved.imp fun _ _ => HookRefs.keepsHandler_of_moved,
    hnew.attributes.imp fun _ _ => Attribute.Rewritten.keepsTable, ?_⟩
  exact HookRefs.keepsLines_of_moved
    (List.rel_flatMap hnew.attributes fun _ _ => Attribute.Rewritten.lines)

/-- A body with two returns. One handler stops at the first of them, another one begins there; the
variable is live up to the second. Two entries give the first return a line. -/
def guardedBody : Code where
  maxStack := 1
  maxLocals := 1
  code := [0x1A, 0x99, 0, 4, 0xB1, 0x1A, 0x3B, 0xB1]
  handlers := [⟨0, 4, 5, 0⟩, ⟨4, 8, 5, 9⟩]
  attributes := [⟨7, ⟨0, 0⟩, .lineNumberTable [⟨4, 20⟩, ⟨0, 10⟩, ⟨4, 21⟩]⟩,
    ⟨8, ⟨0, 0⟩, .localVariableTable [⟨4, 3, 3, 4, 0⟩]⟩]

/-- With hooks the returns are at 11 and 17, behind calls at 8 and 14: where a range stopped or began
at a return, it stops or begins at the call. -/
theorem guardedBody_keepsRanges :
    ∃ out, guardedBody.insertHooks [] ⟨[5], [6]⟩ = .ok out
      ∧ ∃ (pairs : List Replacement) (new : CodeOf NewAttribute),
          out = new.write ∧ CodeOf.KeepsRanges ⟨[5], [6]⟩ pairs guardedBody new := by
  have hout : guardedBody.insertHooks [] ⟨[5], [6]⟩ = .ok
      ([0, 1, 0, 1, 0, 0, 0, 18]
        ++ [184, 0, 5, 0, 26, 153, 0, 7, 184, 0, 6, 177, 26, 59, 184, 0, 6, 177]
        ++ [0, 2, 0, 4, 0, 8, 0, 12, 0, 0, 0, 8, 0, 18, 0, 12, 0, 9] ++ [0, 2]
        ++ [0, 7, 0, 0, 0, 14, 0, 3, 0, 8, 0, 20, 0, 4, 0, 10, 0, 8, 0, 21]
        ++ [0, 8, 0, 0, 0, 12, 0, 1, 0, 8, 0, 6, 0, 3, 0, 4, 0, 0]) := by
    decide +kernel
  exact ⟨_, hout, CodeOf.keepsRanges_insertHooks hout⟩

end AdviceWeaver

import AdviceWeaver.Proofs.Bytecode.Agreement
import AdviceWeaver.Proofs.Bytecode.Nesting
import AdviceWeaver.Proofs.Weaving.PlannedMethods

/-!
# Hooks as insertions

The hooks of a method are an insertion: their calls, and the alignment behind those in front of the
body. What an insertion is there for (`Insertion.Meets`) does not depend on how often the body was
rebuilt: hooks that are carried out later stand outside of those that are there.

## Main results

* `Reframed.rebuilds` — putting hooks into a body rebuilds it with their insertion.
* `Insertion.Meets.andThen` — carried out one after the other, hooks nest.
-/

namespace AdviceWeaver

/-! ### The insertion of hooks -/

namespace HookRefs

variable (hooks : HookRefs)

/-- What hooks put into a body. -/
def insertion : Insertion where
  prologue := hooks.enter.map (fun method => (.call method, .hook))
    ++ List.replicate ((4 - 3 * hooks.enter.length % 4) % 4) (.nop, .alignment)
  exits := hooks.exit.map fun method => (.call method, .hook)

/-- What is put in front of an instruction are the calls in front of it. -/
theorem instructions_before_insertion (i : Instruction) :
    (hooks.insertion.before i).instructions = hooks.callsBefore i := by
  unfold Insertion.before callsBefore
  split
  · simp [insertion, exitCalls, Listing.instructions, Function.comp_def]
  · rfl

/-- What is put into a body, without the roles, is what the hooks make of it. -/
theorem instructions_weave_insertion (instructions : List Instruction) :
    (hooks.insertion.weave instructions).instructions = hooks.weave instructions := by
  rw [Insertion.weave, Listing.instructions_append, weave]
  congr 1
  · simp [insertion, prologue, Listing.instructions, Function.comp_def]
  · induction instructions with
    | nil => rfl
    | cons i rest ih =>
      simp only [List.flatMap_cons, Listing.instructions_append, ih, Insertion.around,
        instructions_before_insertion, around_eq]
      rfl

/-- The new body ends at the same place in both readings. -/
theorem newEnd_insertion (pairs : List Replacement) :
    hooks.insertion.newEnd pairs = hooks.newEnd pairs := by
  rw [Insertion.newEnd, instructions_weave_insertion, newEnd]

/-- A new instruction is placed alike in both readings. -/
theorem newPc_insertion (front : List Replacement) (pair : Replacement) :
    hooks.insertion.newPc front pair = hooks.newPc front pair := by
  rw [Insertion.newPc, newEnd_insertion, instructions_before_insertion, newPc_eq]

/-- Control lands alike in both readings. -/
theorem lands_insertion (pairs : List Replacement) :
    hooks.insertion.Lands pairs = hooks.Lands pairs := by
  funext old new
  simp only [Insertion.Lands, Lands, newEnd_insertion]

end HookRefs

/-- **Putting hooks into a body** rebuilds it with their insertion. -/
theorem Reframed.rebuilds {hooks : HookRefs} {pairs : List Replacement} {body body' : Code}
    (h : Reframed hooks pairs body body') : hooks.insertion.Rebuilds pairs body body' where
  decode_old := h.decode_old
  decode_new := by rw [h.decode_new, hooks.instructions_weave_insertion]
  skeleton := h.skeleton
  distances {front back pair} hsplit := by
    rw [hooks.newPc_insertion, hooks.lands_insertion]
    exact h.distances hsplit
  tables := by
    rw [hooks.lands_insertion]
    exact ⟨h.handlers.imp fun _ _ ⟨hstart, hstop, hhandler, htype⟩ =>
      ⟨hstart, hstop, hhandler, htype⟩, h.frames⟩

/-! ### What an insertion is there for -/

/-- The entry of a listing calls the method `name` of a hook, which `leads` tells. -/
def Hook.CalledBy (leads : String → String → UInt16 → Prop) (name : String) (hook : Hook)
    (entry : Instruction × Role) : Prop :=
  ∃ method, entry = (.call method, .hook) ∧ leads hook.hookClass name method

/-- Two instructions call the same method of a hook, each by a constant of its own pool. -/
def SameCall (leads leads' : String → String → UInt16 → Prop) (i i' : Instruction) : Prop :=
  ∃ hookClass name method method', i = .call method ∧ i' = .call method'
    ∧ leads hookClass name method ∧ leads' hookClass name method'

/-- Two entries that call the same method of a hook are alike, by whatever constants. -/
theorem Hook.CalledBy.alike {leads leads' : String → String → UInt16 → Prop} {name : String}
    {hook : Hook} {entry entry' : Instruction × Role} (h : hook.CalledBy leads name entry)
    (h' : hook.CalledBy leads' name entry') :
    Listing.CallsAlike (SameCall leads leads') entry entry' := by
  obtain ⟨method, rfl, hleads⟩ := h
  obtain ⟨method', rfl, hleads'⟩ := h'
  exact ⟨rfl, rfl, hook.hookClass, name, method, method', rfl, rfl, hleads, hleads'⟩

namespace Insertion

/-- What counts of an insertion is the calls that `hooks` ask for: the enter methods in order, and the
exit methods in reverse order. -/
structure Meets (x : Insertion) (leads : String → String → UInt16 → Prop) (hooks : List Hook) :
    Prop where
  enter : List.Forall₂ (Hook.CalledBy leads Hook.enterName) (hooks.filter Hook.enter)
    x.prologue.counted
  exit : List.Forall₂ (Hook.CalledBy leads Hook.exitName) (hooks.reverse.filter Hook.exit)
    x.exits.counted
  tidy : x.Tidy

/-- Two tidy insertions one behind the other are tidy. -/
theorem Tidy.andThen {x y : Insertion} (hx : x.Tidy) (hy : y.Tidy) : (x.andThen y).Tidy where
  prologue entry hentry :=
    (List.mem_append.1 hentry).elim (hy.prologue entry) (hx.prologue entry)
  exits entry hentry := (List.mem_append.1 hentry).elim (hx.exits entry) (hy.exits entry)

namespace Meets

variable {x y : Insertion} {leads leads' : String → String → UInt16 → Prop}
  {hooks inner outer : List Hook}

/-- What calls the hooks still does if their constants still stand for the calls. -/
theorem imp (h : x.Meets leads hooks)
    (hleads : ∀ hookClass name method, leads hookClass name method →
      leads' hookClass name method) : x.Meets leads' hooks where
  enter := h.enter.imp fun _ _ ⟨method, heq, hcall⟩ => ⟨method, heq, hleads _ _ _ hcall⟩
  exit := h.exit.imp fun _ _ ⟨method, heq, hcall⟩ => ⟨method, heq, hleads _ _ _ hcall⟩
  tidy := h.tidy

/-- What calls hooks is no jump and no return. -/
theorem isInert (h : x.Meets leads hooks) : x.IsInert where
  prologue {i} hi := by
    obtain ⟨entry, hentry, rfl⟩ := List.mem_map.1 hi
    obtain hrole | rfl := h.tidy.prologue entry hentry
    · have hcounted : entry ∈ x.prologue.counted := by simp [Listing.counted, hentry, hrole]
      obtain ⟨_, _, method, rfl, -⟩ := exists_of_forall₂_right h.enter hcounted
      exact Instruction.isInert_call method
    · exact Instruction.isInert_nop
  exits {i} hi := by
    obtain ⟨entry, hentry, rfl⟩ := List.mem_map.1 hi
    have hcounted : entry ∈ x.exits.counted := by
      simp [Listing.counted, hentry, h.tidy.exits entry hentry]
    obtain ⟨_, _, method, rfl, -⟩ := exists_of_forall₂_right h.exit hcounted
    exact Instruction.isInert_call method

/-- Insertions for the same hooks call the same methods. -/
theorem alike (h : x.Meets leads hooks) (h' : y.Meets leads' hooks) :
    Alike (SameCall leads leads') x y where
  prologue := forall₂_comp (List.Forall₂.flip (h.enter.imp fun _ _ => id)) h'.enter
    fun _ _ _ hcalled hcalled' => Hook.CalledBy.alike hcalled hcalled'
  exits := forall₂_comp (List.Forall₂.flip (h.exit.imp fun _ _ => id)) h'.exit
    fun _ _ _ hcalled hcalled' => Hook.CalledBy.alike hcalled hcalled'

/-- **Carried out later**, hooks are entered first and left last. -/
theorem andThen (hx : x.Meets leads inner) (hy : y.Meets leads outer) :
    (x.andThen y).Meets leads (outer ++ inner) where
  enter := by
    rw [List.filter_append, Insertion.andThen, Listing.counted_append]
    exact List.rel_append hy.enter hx.enter
  exit := by
    rw [List.reverse_append, List.filter_append, Insertion.andThen, Listing.counted_append]
    exact List.rel_append hx.exit hy.exit
  tidy := hx.tidy.andThen hy.tidy

/-- Hooks that ask for no call make no difference. -/
theorem of_filter_eq (h : x.Meets leads hooks) {hooks' : List Hook}
    (henter : hooks'.filter Hook.enter = hooks.filter Hook.enter)
    (hexit : hooks'.filter Hook.exit = hooks.filter Hook.exit) : x.Meets leads hooks' where
  enter := henter ▸ h.enter
  exit := by
    rw [List.filter_reverse, hexit, ← List.filter_reverse]
    exact h.exit
  tidy := h.tidy

end Meets

end Insertion

/-- **The calls that weaving puts in** are those that the hooks ask for, in their order. -/
theorem HookRefs.Meets.insertion {refs : HookRefs} {leads : String → String → UInt16 → Prop}
    {hooks : List Hook} (h : refs.Meets leads hooks) : refs.insertion.Meets leads hooks where
  enter := by
    have hcounted : refs.insertion.prologue.counted
        = refs.enter.map fun method => (Instruction.call method, Role.hook) := by
      simp [HookRefs.insertion, Listing.counted]
    rw [hcounted, List.forall₂_map_right_iff]
    exact h.enter.imp fun _ method hleads => ⟨method, rfl, hleads⟩
  exit := by
    have hcounted : refs.insertion.exits.counted
        = refs.exit.map fun method => (Instruction.call method, Role.hook) := by
      simp [HookRefs.insertion, Listing.counted]
    rw [hcounted, List.forall₂_map_right_iff]
    exact h.exit.imp fun _ method hleads => ⟨method, rfl, hleads⟩
  tidy := by
    constructor
    · intro entry hentry
      obtain hcall | hnop := List.mem_append.1 hentry
      · obtain ⟨method, -, rfl⟩ := List.mem_map.1 hcall
        exact .inl rfl
      · exact .inr (List.eq_of_mem_replicate hnop)
    · intro entry hentry
      obtain ⟨method, -, rfl⟩ := List.mem_map.1 hentry
      rfl

end AdviceWeaver

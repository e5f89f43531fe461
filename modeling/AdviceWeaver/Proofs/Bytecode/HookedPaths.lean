import AdviceWeaver.Proofs.Bytecode.Runs
import AdviceWeaver.Proofs.ClassFile.CodeContent

/-!
# Paths with hooks

What `CodeOf.insertHooks` does to the control flow of a method body, told by the `Layout` of the old
body. The paths of the new body are those of the old one with the calls of hooks put in
(`Layout.withHooks`): the prologue runs once, before the first instruction, also if the body jumps
back to its offset 0, and the exit calls run in front of every return that is executed, however it
is reached. What was put in is taken to complete normally.

## Main results

* `CodeOf.simulates_insertHooks` — the new body does what the old one does, with hooks.
-/

namespace AdviceWeaver

namespace Layout

variable (layout : Layout)

/-- Whether what stands at an offset of the new body was put in. -/
def isInserted (pc : Nat) : Bool :=
  layout.sites.all fun site => site.newPc != pc

/-- The visits of what was not put in. -/
def erase (visits : List Visit) : List Visit :=
  visits.filter fun v => !layout.isInserted v.1

/-- A visit of an instruction in the old body and one of what became of it in the new body. -/
def Moves (v v' : Visit) : Prop :=
  ∃ site ∈ layout.sites, site.pc = v.1 ∧ site.newPc = v'.1 ∧ v'.2.skeleton = v.2.skeleton

/-- Where an offset of the old body lands. -/
def landing (old : Nat) : Nat :=
  (layout.map? old).getD 0

/-- What control visits in the new body when it visits instructions of the old body: the prologue,
and for each of them the calls in front of it and the instruction. -/
def withHooks (hooks : HookRefs) (visits : List Visit) : List Visit :=
  Body.located 0 hooks.prologue
    ++ visits.flatMap fun v => Body.located (layout.landing v.1) (hooks.around v.2.skeleton)

/-- The body `new` does what `old` does, with hooks: every path of the old body is one of the new
body when the calls of the hooks are erased, the calls being where `withHooks` has them, and every
path of the new body is the beginning of such a path. -/
structure Simulates {α β : Type} (hooks : HookRefs) (old : CodeOf α) (new : CodeOf β) : Prop where
  forward {visits : List Visit} : old.Path (fun _ => False) visits →
    ∃ visits', new.Path (fun pc => layout.isInserted pc) visits'
      ∧ List.Forall₂ layout.Moves visits (layout.erase visits')
      ∧ visits'.map Visit.skeleton = layout.withHooks hooks visits
  backward {visits' : List Visit} : new.Path (fun pc => layout.isInserted pc) visits' →
    ∃ visits more, old.Path (fun _ => False) (visits ++ more)
      ∧ List.Forall₂ layout.Moves visits (layout.erase visits')
      ∧ visits'.map Visit.skeleton <+: layout.withHooks hooks (visits ++ more)

end Layout

namespace HookRefs

variable {hooks : HookRefs} {pairs : List Replacement}

/-- The site of a pair. -/
theorem exists_site (h : Layout.Mended hooks pairs) {before after : List Replacement}
    {pair : Replacement} (hpair : pairs = before ++ pair :: after) :
    ∃ site ∈ (Layout.of (pairs.map Prod.fst) hooks).sites,
      site.pc = oldEnd before ∧ site.newPc = hooks.newPc before pair := by
  have hsplit : pairs.map Prod.fst = before.map Prod.fst ++ pair.1 :: after.map Prod.fst := by
    simp [hpair]
  refine ⟨_, Layout.mem_sites_iff.2 ⟨_, _, _, hsplit, rfl⟩, rfl, ?_⟩
  rw [h.endFrom_eq hpair]
  exact Layout.newPc_place (h.skeleton (by simp [hpair]))

/-- An offset of the new body is an inserted one exactly if no old instruction was placed there. -/
theorem isInserted_iff (h : Layout.Mended hooks pairs) {pc : Nat} :
    (Layout.of (pairs.map Prod.fst) hooks).isInserted pc = true ↔ ¬ hooks.Original pairs pc := by
  rw [Layout.isInserted, List.all_eq_true]
  constructor
  · rintro hall ⟨before, pair, after, hpair, rfl⟩
    obtain ⟨site, hsite, -, hnewPc⟩ := exists_site h hpair
    simpa [hnewPc] using hall site hsite
  · intro hnone site hsite
    rw [bne_iff_ne]
    rintro rfl
    obtain ⟨front, i, back, hsplit, rfl⟩ := Layout.mem_sites_iff.1 hsite
    obtain ⟨before, rest, hpair, rfl, hrest⟩ := List.map_eq_append_iff.1 hsplit
    obtain ⟨pair, after, rfl, rfl, rfl⟩ := List.map_eq_cons_iff.1 hrest
    refine hnone ⟨before, pair, after, hpair, ?_⟩
    rw [h.endFrom_eq hpair]
    exact Layout.newPc_place (h.skeleton (by simp [hpair]))

/-- An old offset between two instructions lands where control does. -/
theorem landing_eq (h : Layout.Mended hooks pairs) {before after : List Replacement}
    (hsplit : pairs = before ++ after) :
    (Layout.of (pairs.map Prod.fst) hooks).landing (oldEnd before) = hooks.newEnd before := by
  rw [Layout.landing, h.map?_eq_some_iff.2 (Lands.of_split hsplit), Option.getD_some]

/-- The calls are what they are without distances too. -/
theorem located_skeleton {pc : Nat} {instructions : List Instruction}
    (h : ∀ j ∈ instructions, j.skeleton = j) :
    (Body.located pc instructions).map Visit.skeleton = Body.located pc instructions := by
  induction instructions generalizing pc with
  | nil => rfl
  | cons j rest ih =>
    rw [Body.located, List.map_cons, Visit.skeleton, h j List.mem_cons_self,
      ih fun k hk => h k (List.mem_cons_of_mem j hk)]

/-- A call in front of a return has no distances. -/
theorem skeleton_of_mem_callsBefore {i j : Instruction} (hmem : j ∈ hooks.callsBefore i) :
    j.skeleton = j := by
  obtain ⟨p, q, hsplit⟩ := List.append_of_mem hmem
  exact (passes_of_callsBefore hsplit).skeleton

/-- The instructions around an old one are located alike without the distances. -/
theorem located_around_skeleton (pc : Nat) (i : Instruction) :
    (Body.located pc (hooks.around i)).map Visit.skeleton
      = Body.located pc (hooks.around i.skeleton) := by
  have hcalls : hooks.callsBefore i.skeleton = hooks.callsBefore i := by
    simp only [callsBefore, Instruction.isReturn_skeleton]
  rw [around_eq, around_eq, hcalls, Body.located_append, Body.located_append, List.map_append,
    located_skeleton fun _ => skeleton_of_mem_callsBefore]
  rfl

namespace Runs

variable {visits visits' : List Visit}

/-- A run visits what the hooks put in and the instructions. -/
theorem skeleton_eq (hpairs : Layout.Mended hooks pairs) (h : hooks.Runs pairs visits visits') :
    visits'.map Visit.skeleton
      = (Layout.of (pairs.map Prod.fst) hooks).withHooks hooks visits := by
  induction h with
  | nil =>
    rw [Layout.withHooks, List.flatMap_nil, List.append_nil]
    apply located_skeleton
    intro j hj
    obtain ⟨p, q, hsplit⟩ := List.append_of_mem hj
    exact (passes_of_prologue hsplit).skeleton
  | @step visits visits' before after pair _ hpair ih =>
    rw [List.map_append, ih, located_around_skeleton, hpairs.skeleton (by simp [hpair])]
    simp only [Layout.withHooks, List.flatMap_append, List.flatMap_cons, List.flatMap_nil,
      List.append_nil, List.append_assoc, landing_eq hpairs hpair]

/-- Inserted instructions in a row are erased, by induction on them. -/
theorem erase_located {start : Nat} {instructions : List Instruction}
    (hpairs : Layout.Mended hooks pairs)
    (h : ∀ p j q, instructions = p ++ j :: q → ¬ hooks.Original pairs (start + Body.length p)) :
    (Layout.of (pairs.map Prod.fst) hooks).erase (Body.located start instructions) = [] := by
  induction instructions generalizing start with
  | nil => rfl
  | cons j rest ih =>
    have hj : (Layout.of (pairs.map Prod.fst) hooks).isInserted start = true :=
      (isInserted_iff hpairs).2 (h [] j rest rfl)
    rw [Body.located, Layout.erase, List.filter_cons_of_neg (by simp [hj])]
    apply ih
    rintro p k q rfl
    have hk := h (j :: p) k q rfl
    rwa [Body.length_cons, ← Nat.add_assoc] at hk

/-- **Erasing** what was put in from a run leaves the instructions. -/
theorem moves (hpairs : Layout.Mended hooks pairs) (h : hooks.Runs pairs visits visits') :
    List.Forall₂ (Layout.of (pairs.map Prod.fst) hooks).Moves visits
      ((Layout.of (pairs.map Prod.fst) hooks).erase visits') := by
  induction h with
  | nil =>
    rw [erase_located hpairs]
    · exact .nil
    · intro p j q hsplit
      rw [Nat.zero_add]
      exact not_original_of_prologue hsplit
  | @step visits visits' before after pair _ hpair ih =>
    have hcalls : (Layout.of (pairs.map Prod.fst) hooks).erase
        (Body.located (hooks.newEnd before) (hooks.callsBefore pair.2)) = [] :=
      erase_located hpairs fun p j q hsplit => not_original_of_callsBefore hpair hsplit
    have hkept : (Layout.of (pairs.map Prod.fst) hooks).isInserted (hooks.newPc before pair)
        = false := by
      rw [← Bool.not_eq_true, isInserted_iff hpairs, not_not]
      exact ⟨before, pair, after, hpair, rfl⟩
    rw [around_eq, Body.located_append, Layout.erase, List.filter_append, List.filter_append]
    rw [Layout.erase] at hcalls
    rw [hcalls, List.nil_append, Body.located, Body.located, ← newPc_eq,
      List.filter_cons_of_pos (by simp [hkept]), List.filter_nil]
    obtain ⟨site, hsite, hpc, hnewPc⟩ := exists_site hpairs hpair
    exact List.rel_append ih
      (.cons ⟨site, hsite, hpc, hnewPc, hpairs.skeleton (by simp [hpair])⟩ .nil)

end Runs

end HookRefs

/-- Bodies that are rebuilt from one another simulate each other. -/
theorem Rebuilt.simulates {α β : Type} {hooks : HookRefs} {pairs : List Replacement}
    {old : CodeOf α} {new : CodeOf β} (h : Rebuilt hooks pairs old new)
    (hpairs : Layout.Mended hooks pairs) :
    (Layout.of (pairs.map Prod.fst) hooks).Simulates hooks old new where
  forward := by
    intro visits hpath
    obtain ⟨visits', hruns⟩ := h.exists_runs hpath
    have hnew := (h.path_iff_of_runs (fun _ => HookRefs.isInserted_iff hpairs) hruns).2 hpath
    exact ⟨visits', hnew, hruns.moves hpairs, hruns.skeleton_eq hpairs⟩
  backward := by
    intro visits' hpath
    obtain ⟨all, start, passed, left, ⟨front, hvisits, hruns⟩, hold, -, -⟩ :=
      h.exists_underway (fun _ => HookRefs.isInserted_iff hpairs) hpath
    rw [Body.located_append, ← List.append_assoc, ← hvisits] at hruns
    have hmoves := hruns.moves hpairs
    rw [Layout.erase, List.filter_append, ← Layout.erase] at hmoves
    obtain ⟨visits, more, rfl, hmoves'⟩ : ∃ visits more, all = visits ++ more
        ∧ List.Forall₂ (Layout.of (pairs.map Prod.fst) hooks).Moves visits
          ((Layout.of (pairs.map Prod.fst) hooks).erase visits') :=
      ⟨_, _, (List.take_append_drop _ all).symm, List.forall₂_take_append _ _ _ hmoves⟩
    refine ⟨visits, more, hold, hmoves', ?_⟩
    rw [← hruns.skeleton_eq hpairs, List.map_append]
    exact List.prefix_append _ _

/-- **Inserting hooks** keeps the control flow of a body and calls the hooks where they belong. What
is written is a body, which is read back unless its code is empty or its exception table longer than
the class file format has it. -/
theorem CodeOf.simulates_insertHooks {body : Code} {classBytes out : Bytes} {hooks : HookRefs}
    (h : body.insertHooks classBytes hooks = .ok out) :
    ∃ (instructions : List Instruction) (new : CodeOf Bytes),
      Body.decode body.code = .ok instructions ∧ new.encode = out
        ∧ (new.code ≠ [] → body.handlers.length < 65536 →
            (Reader.code (pure [])).run' ⟨0, out⟩ = .ok { new with attributes := [] })
        ∧ (Layout.of instructions hooks).Simulates hooks body new := by
  obtain ⟨pairs, new, rfl, hnew⟩ := CodeOf.hooked_of_insertHooks h
  refine ⟨_, new, hnew.rebuilt.decode_old, rfl, ?_, hnew.rebuilt.simulates hnew.mended⟩
  intro hne hhandlers
  rw [hnew.rebuilt.handlers.length_eq] at hhandlers
  have hread : (Reader.code (pure [])).Takes 0 (new.front ++ []) { new with attributes := [] } :=
    Reader.takes_code hne hnew.length hhandlers (Reader.takes_pure [] _)
  have hout := hread (encodeTable id new.attributes)
  rw [List.append_nil, ← CodeOf.encode] at hout
  show Prod.fst <$> Reader.code (pure []) ⟨0, new.encode⟩ = _
  rw [hout]
  rfl

/-- A loop back to offset 0 that is left by a jump onto the return. -/
def loopBody : Code where
  maxStack := 1
  maxLocals := 1
  code := [0x1A, 0x99, 0, 6, 0xA7, 0xFF, 0xFC, 0xB1]
  handlers := [⟨0, 7, 7, 0⟩]
  attributes := []

/-- The loop with hooks: its octets, and what they do. -/
theorem loopBody_simulates :
    ∃ out, loopBody.insertHooks [] ⟨[5], [6]⟩ = .ok out
      ∧ ∃ (instructions : List Instruction) (new : CodeOf Bytes),
          Body.decode loopBody.code = .ok instructions ∧ new.encode = out
            ∧ (new.code ≠ [] → loopBody.handlers.length < 65536 →
                (Reader.code (pure [])).run' ⟨0, out⟩ = .ok { new with attributes := [] })
            ∧ (Layout.of instructions ⟨[5], [6]⟩).Simulates ⟨[5], [6]⟩ loopBody new := by
  have hout : loopBody.insertHooks [] ⟨[5], [6]⟩ = .ok
      ([0, 1, 0, 1, 0, 0, 0, 15] ++ [184, 0, 5, 0, 26, 153, 0, 6, 167, 255, 252, 184, 0, 6, 177]
        ++ [0, 1, 0, 4, 0, 11, 0, 11, 0, 0] ++ [0, 0]) := by
    decide +kernel
  exact ⟨_, hout, CodeOf.simulates_insertHooks hout⟩

end AdviceWeaver

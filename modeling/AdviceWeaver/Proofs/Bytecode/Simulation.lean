import AdviceWeaver.Proofs.Bytecode.NewBody

/-!
# Control in both bodies

When a body is rebuilt with hooks, control moves from an instruction of the old body to the places
where it moves from the new instruction (`Rebuilt.flow_iff`): what it moves to are places that land
on each other. Between such a place and the instruction there, the new body has nothing but calls
of hooks.

## Main results

* `Rebuilt.at_old_iff`, `Rebuilt.at_new_iff` — where the instructions of both bodies start.
* `Rebuilt.flow_iff` — control moves from a new instruction as it does from the old one.
-/

namespace AdviceWeaver

/-! ### Order of places -/

/-- The old body goes on with every instruction. -/
theorem oldEnd_lt_concat (front : List Replacement) (pair : Replacement) :
    oldEnd front < oldEnd (front ++ [pair]) := by
  rw [oldEnd_concat]
  exact Nat.lt_add_of_pos_right pair.1.length_pos

namespace HookRefs

variable (hooks : HookRefs)

/-- The calls in front of an instruction. -/
def callsBefore (i : Instruction) : List Instruction :=
  if i.isReturn then hooks.exitCalls else []

/-- What stands for an instruction is its calls and then the instruction itself. -/
theorem around_eq (i : Instruction) : hooks.around i = hooks.callsBefore i ++ [i] := by
  unfold around callsBefore
  split <;> rfl

/-- A new instruction stands behind its calls. -/
theorem newPc_eq (before : List Replacement) (pair : Replacement) :
    hooks.newPc before pair = hooks.newEnd before + Body.length (hooks.callsBefore pair.2) := by
  unfold newPc callsBefore
  split <;> rfl

/-- A new instruction does not stand in front of its calls. -/
theorem newEnd_le_newPc (before : List Replacement) (pair : Replacement) :
    hooks.newEnd before ≤ hooks.newPc before pair :=
  Nat.le_add_right _ _

/-- A new instruction stands in front of its end. -/
theorem newPc_lt_newEnd (before : List Replacement) (pair : Replacement) :
    hooks.newPc before pair < hooks.newEnd (before ++ [pair]) := by
  rw [newEnd_concat]
  exact Nat.lt_add_of_pos_right pair.2.length_pos

/-- The new body goes on with every instruction. -/
theorem newEnd_lt_concat (front : List Replacement) (pair : Replacement) :
    hooks.newEnd front < hooks.newEnd (front ++ [pair]) :=
  Nat.lt_of_le_of_lt (hooks.newEnd_le_newPc front pair) (hooks.newPc_lt_newEnd front pair)

variable {hooks} {pairs before after front back : List Replacement} {pair : Replacement}

/-- A place is in front of a new instruction, or right before its calls, exactly if it is so in the
sequence. -/
theorem newEnd_le_newPc_iff (hpair : pairs = before ++ pair :: after)
    (hfront : front <+: pairs) :
    hooks.newEnd front ≤ hooks.newPc before pair ↔ front.length ≤ before.length := by
  have hbefore : before <+: pairs := ⟨_, hpair.symm⟩
  have hbehind : before ++ [pair] <+: pairs := ⟨after, by simp [hpair]⟩
  constructor
  · intro h
    have hlt := Nat.lt_of_le_of_lt h (hooks.newPc_lt_newEnd before pair)
    rw [← Nat.not_le, prefix_le_iff hooks.newEnd_lt_concat hbehind hfront] at hlt
    simp only [List.length_append, List.length_singleton] at hlt
    omega
  · intro h
    have hle := (prefix_le_iff hooks.newEnd_lt_concat hfront hbefore).2 h
    exact Nat.le_trans hle (hooks.newEnd_le_newPc before pair)

/-- A place belongs to one beginning of the sequence only. -/
theorem eq_of_newEnd_eq (h : front <+: pairs) (h' : before <+: pairs)
    (heq : hooks.newEnd front = hooks.newEnd before) : front = before := by
  have hle := (prefix_le_iff hooks.newEnd_lt_concat h h').1 (Nat.le_of_eq heq)
  have hge := (prefix_le_iff hooks.newEnd_lt_concat h' h).1 (Nat.le_of_eq heq.symm)
  exact (List.prefix_of_prefix_length_le h h' hle).eq_of_length (Nat.le_antisymm hle hge)

end HookRefs

/-- The old end tells how many instructions are in front. -/
theorem eq_of_oldEnd_eq {pairs front before : List Replacement} (h : front <+: pairs)
    (h' : before <+: pairs) (heq : oldEnd front = oldEnd before) : front = before := by
  have hle := (prefix_le_iff oldEnd_lt_concat h h').1 (Nat.le_of_eq heq)
  have hge := (prefix_le_iff oldEnd_lt_concat h' h).1 (Nat.le_of_eq heq.symm)
  exact (List.prefix_of_prefix_length_le h h' hle).eq_of_length (Nat.le_antisymm hle hge)

namespace HookRefs.Lands

variable {hooks : HookRefs} {pairs before after : List Replacement} {old new old' new' : Nat}

/-- Every place between two instructions is one where control lands. -/
theorem of_split (h : pairs = before ++ after) :
    hooks.Lands pairs (oldEnd before) (hooks.newEnd before) :=
  ⟨before, after, h, rfl, rfl⟩

/-- An old offset lands at one place. -/
theorem new_unique (h : hooks.Lands pairs old new) (h' : hooks.Lands pairs old new') :
    new = new' := by
  obtain ⟨front, back, hfront, hold, rfl⟩ := h
  obtain ⟨front', back', hfront', hold', rfl⟩ := h'
  rw [eq_of_oldEnd_eq ⟨back, hfront.symm⟩ ⟨back', hfront'.symm⟩ (hold.symm.trans hold')]

/-- One old offset lands at a place. -/
theorem old_unique (h : hooks.Lands pairs old new) (h' : hooks.Lands pairs old' new) :
    old = old' := by
  obtain ⟨front, back, hfront, rfl, hnew⟩ := h
  obtain ⟨front', back', hfront', rfl, hnew'⟩ := h'
  rw [HookRefs.eq_of_newEnd_eq ⟨back, hfront.symm⟩ ⟨back', hfront'.symm⟩ (hnew.symm.trans hnew')]

/-- Places are in the order of the old offsets. -/
theorem le_iff_le (h : hooks.Lands pairs old new) (h' : hooks.Lands pairs old' new') :
    new ≤ new' ↔ old ≤ old' := by
  obtain ⟨front, back, hfront, rfl, rfl⟩ := h
  obtain ⟨front', back', hfront', rfl, rfl⟩ := h'
  have hprefix : front <+: pairs := ⟨back, hfront.symm⟩
  have hprefix' : front' <+: pairs := ⟨back', hfront'.symm⟩
  rw [prefix_le_iff hooks.newEnd_lt_concat hprefix hprefix',
    prefix_le_iff oldEnd_lt_concat hprefix hprefix']

/-- **A place is not behind** an instruction, nor behind one of the calls in front of it, exactly if
its old offset is not behind that of the instruction. -/
theorem le_iff {pair : Replacement} {rest : List Replacement} {pc : Nat}
    (h : hooks.Lands pairs old new) (hpair : pairs = before ++ pair :: rest)
    (hle : hooks.newEnd before ≤ pc) (hpc : pc ≤ hooks.newPc before pair) :
    new ≤ pc ↔ old ≤ oldEnd before := by
  rw [← h.le_iff_le (of_split hpair)]
  refine ⟨fun hnew => ?_, fun hnew => Nat.le_trans hnew hle⟩
  -- no place is between the calls of an instruction and the instruction
  obtain ⟨front, back, hfront, -, rfl⟩ := h
  have hprefix : front <+: pairs := ⟨back, hfront.symm⟩
  rw [prefix_le_iff hooks.newEnd_lt_concat hprefix ⟨_, hpair.symm⟩]
  exact (newEnd_le_newPc_iff hpair hprefix).1 (Nat.le_trans hnew hpc)

/-- No place is in front of the end of the prologue. -/
theorem prologue_le (h : hooks.Lands pairs old new) : Body.length hooks.prologue ≤ new := by
  obtain ⟨front, back, -, -, rfl⟩ := h
  rw [newEnd, weave, Body.length_append]
  exact Nat.le_add_right ..

end HookRefs.Lands

/-! ### Instructions -/

/-- An item of lists in a row is an item of one of them. -/
theorem flatMap_eq_append_cons {α β : Type} {f : α → List β} {items : List α} {front back : List β}
    {b : β} (h : items.flatMap f = front ++ b :: back) :
    ∃ before a after p q, items = before ++ a :: after ∧ f a = p ++ b :: q
      ∧ front = before.flatMap f ++ p := by
  induction items generalizing front with
  | nil => simp at h
  | cons a rest ih =>
    rw [List.flatMap_cons, List.append_eq_append_iff] at h
    obtain ⟨more, rfl, hrest⟩ | ⟨more, ha, hmore⟩ := h
    · obtain ⟨before, a', after, p, q, rfl, ha', rfl⟩ := ih hrest
      exact ⟨a :: before, a', after, p, q, rfl, ha', by simp⟩
    · cases more with
      | nil =>
        have hrest : rest.flatMap f = [] ++ b :: back := hmore.symm
        obtain ⟨before, a', after, p, q, rfl, ha', hnil⟩ := ih hrest
        refine ⟨a :: before, a', after, p, q, rfl, ha', ?_⟩
        rw [List.flatMap_cons, List.append_assoc, ← hnil, ha]
        simp
      | cons b' more =>
        obtain ⟨rfl, -⟩ := List.cons.inj hmore
        exact ⟨[], a, rest, front, more, rfl, ha, rfl⟩

/-- An item of a list with one more item behind is that one or an item of the list. -/
theorem append_singleton_eq_append_cons {α : Type} {items p q : List α} {a b : α}
    (h : items ++ [a] = p ++ b :: q) :
    (items = p ∧ b = a ∧ q = []) ∨ ∃ q', q = q' ++ [a] ∧ items = p ++ b :: q' := by
  induction q using List.reverseRecOn with
  | nil =>
    obtain ⟨hitems, hab⟩ := List.append_inj' h rfl
    exact .inl ⟨hitems, (List.cons.inj hab).1.symm, rfl⟩
  | append_singleton q' c =>
    rw [← List.cons_append, ← List.append_assoc] at h
    obtain ⟨hitems, hac⟩ := List.append_inj' h rfl
    exact .inr ⟨q', by rw [(List.cons.inj hac).1], hitems⟩

namespace Rebuilt

variable {α β : Type} {hooks : HookRefs} {pairs before after : List Replacement}
  {pair : Replacement} {old : CodeOf α} {new : CodeOf β} (h : Rebuilt hooks pairs old new)
include h

/-- Old instructions start where a pair has them. -/
theorem at_old_iff {pc : Nat} {i : Instruction} :
    old.At pc i ↔ ∃ before pair after, pairs = before ++ pair :: after ∧ pc = oldEnd before
      ∧ i = pair.1 := by
  simp only [CodeOf.At, h.decode_old, Except.ok.injEq]
  constructor
  · rintro ⟨front, back, hsplit, rfl⟩
    obtain ⟨before, rest, rfl, rfl, hrest⟩ := List.map_eq_append_iff.1 hsplit
    obtain ⟨pair, after, rfl, rfl, rfl⟩ := List.map_eq_cons_iff.1 hrest
    exact ⟨before, pair, after, rfl, rfl, rfl⟩
  · rintro ⟨before, pair, after, rfl, rfl, rfl⟩
    exact ⟨before.map Prod.fst, after.map Prod.fst, by simp, rfl⟩

/-- The old instruction of a pair stands behind the old ones in front. -/
theorem at_old (hpair : pairs = before ++ pair :: after) : old.At (oldEnd before) pair.1 :=
  h.at_old_iff.2 ⟨before, pair, after, hpair, rfl, rfl⟩

/-- What the new body has in front of a place and behind it. -/
theorem at_new_of_split {front back : List Instruction} {j : Instruction}
    (hsplit : hooks.weave (pairs.map Prod.snd) = front ++ j :: back) :
    new.At (Body.length front) j :=
  ⟨front, back, h.decode_new.trans (congrArg Except.ok hsplit), rfl⟩

/-- An instruction of the prologue stands at its own place in it, at the start of the new body. -/
theorem at_new_prologue {p q : List Instruction} {j : Instruction}
    (hsplit : hooks.prologue = p ++ j :: q) : new.At (Body.length p) j := by
  have hweave : hooks.weave (pairs.map Prod.snd)
      = p ++ j :: (q ++ (pairs.map Prod.snd).flatMap hooks.around) := by
    rw [HookRefs.weave, hsplit, List.append_assoc, List.cons_append]
  exact h.at_new_of_split hweave

/-- What stands for an instruction begins where the new body in front of it ends. -/
theorem at_new_around (hpair : pairs = before ++ pair :: after) {p q : List Instruction}
    {j : Instruction} (hsplit : hooks.around pair.2 = p ++ j :: q) :
    new.At (hooks.newEnd before + Body.length p) j := by
  have hweave : hooks.weave (pairs.map Prod.snd) = (hooks.weave (before.map Prod.snd) ++ p)
      ++ j :: (q ++ (after.map Prod.snd).flatMap hooks.around) := by
    rw [hpair, List.map_append, HookRefs.weave_append, List.map_cons, List.flatMap_cons, hsplit]
    simp
  rw [HookRefs.newEnd, ← Body.length_append]
  exact h.at_new_of_split hweave

/-- The new instruction of a pair stands behind its calls. -/
theorem at_new (hpair : pairs = before ++ pair :: after) :
    new.At (hooks.newPc before pair) pair.2 := by
  rw [HookRefs.newPc_eq]
  exact h.at_new_around hpair (hooks.around_eq pair.2)

/-- New instructions are those of the prologue, and around each pair the calls and the new
instruction. -/
theorem at_new_iff {pc : Nat} {j : Instruction} :
    new.At pc j
      ↔ (∃ p q, hooks.prologue = p ++ j :: q ∧ pc = Body.length p)
        ∨ ∃ before pair after p q, pairs = before ++ pair :: after
            ∧ hooks.around pair.2 = p ++ j :: q ∧ pc = hooks.newEnd before + Body.length p := by
  constructor
  · rintro ⟨front, back, hdecode, rfl⟩
    rw [h.decode_new, Except.ok.injEq, HookRefs.weave, List.append_eq_append_iff] at hdecode
    -- The instruction stands behind the prologue or in it.
    obtain ⟨more, rfl, hmore⟩ | ⟨more, hprologue, hmore⟩ := hdecode
    · obtain ⟨front, j', back, p, q, hpairs, haround, rfl⟩ := flatMap_eq_append_cons hmore
      obtain ⟨before, rest, rfl, rfl, hrest⟩ := List.map_eq_append_iff.1 hpairs
      obtain ⟨pair, after, rfl, rfl, rfl⟩ := List.map_eq_cons_iff.1 hrest
      refine .inr ⟨before, pair, after, p, q, rfl, haround, ?_⟩
      simp [HookRefs.newEnd, HookRefs.weave, Nat.add_assoc]
    · cases more with
      | nil =>
        have hrest : (pairs.map Prod.snd).flatMap hooks.around = [] ++ j :: back := hmore.symm
        obtain ⟨front', j', back', p, q, hpairs, haround, hnil⟩ := flatMap_eq_append_cons hrest
        obtain ⟨before, rest, rfl, rfl, hrest⟩ := List.map_eq_append_iff.1 hpairs
        obtain ⟨pair, after, rfl, rfl, rfl⟩ := List.map_eq_cons_iff.1 hrest
        refine .inr ⟨before, pair, after, p, q, rfl, haround, ?_⟩
        rw [HookRefs.newEnd, HookRefs.weave, ← Body.length_append, List.append_assoc, ← hnil,
          hprologue, List.append_nil, List.append_nil]
      | cons j' more =>
        obtain ⟨rfl, -⟩ := List.cons.inj hmore
        exact .inl ⟨front, more, hprologue, rfl⟩
  · rintro (⟨p, q, hprologue, rfl⟩ | ⟨before, pair, after, p, q, hpair, haround, rfl⟩)
    · exact h.at_new_prologue hprologue
    · exact h.at_new_around hpair haround

end Rebuilt

/-! ### What was put in -/

namespace HookRefs

/-- An old instruction has its new place at `pc`. -/
def Original (hooks : HookRefs) (pairs : List Replacement) (pc : Nat) : Prop :=
  ∃ before pair after, pairs = before ++ pair :: after ∧ pc = hooks.newPc before pair

variable {hooks : HookRefs} {pairs before after : List Replacement} {pair : Replacement}
  {p q : List Instruction} {j : Instruction}

/-- Control passes every instruction of the prologue. -/
theorem passes_of_prologue (hsplit : hooks.prologue = p ++ j :: q) : j.Passes := by
  have hmem : j ∈ hooks.prologue := by simp [hsplit]
  simp only [prologue, List.mem_append, List.mem_map, List.mem_replicate] at hmem
  obtain ⟨method, -, rfl⟩ | ⟨-, rfl⟩ := hmem
  · exact Instruction.passes_call method
  · exact Instruction.passes_nop

/-- Control passes the calls in front of a return. -/
theorem passes_of_callsBefore {i : Instruction} (hsplit : hooks.callsBefore i = p ++ j :: q) :
    j.Passes := by
  have hmem : j ∈ hooks.callsBefore i := by simp [hsplit]
  unfold callsBefore at hmem
  split at hmem
  · obtain ⟨method, -, rfl⟩ := List.mem_map.1 hmem
    exact Instruction.passes_call method
  · cases hmem

/-- No old instruction is in the prologue. -/
theorem not_original_of_prologue (hsplit : hooks.prologue = p ++ j :: q) :
    ¬ hooks.Original pairs (Body.length p) := by
  rintro ⟨before, pair, after, hpair, heq⟩
  have hle : hooks.newEnd [] ≤ hooks.newPc before pair :=
    (newEnd_le_newPc_iff hpair List.nil_prefix).2 (Nat.zero_le _)
  have hpos := j.length_pos
  simp only [newEnd, weave, List.map_nil, List.flatMap_nil, List.append_nil, hsplit,
    Body.length_append, Body.length_cons] at hle
  omega

/-- No old instruction is among the calls in front of another one. -/
theorem not_original_of_callsBefore (hpair : pairs = before ++ pair :: after)
    (hsplit : hooks.callsBefore pair.2 = p ++ j :: q) :
    ¬ hooks.Original pairs (hooks.newEnd before + Body.length p) := by
  rintro ⟨before', pair', after', hpair', heq⟩
  have hpos := j.length_pos
  have hlt : hooks.newEnd before + Body.length p < hooks.newPc before pair := by
    simp only [newPc_eq, hsplit, Body.length_append, Body.length_cons]
    omega
  have hle : hooks.newEnd before ≤ hooks.newPc before' pair' := heq ▸ Nat.le_add_right _ _
  have hge : hooks.newEnd before' ≤ hooks.newPc before pair :=
    Nat.le_trans (hooks.newEnd_le_newPc before' pair') (heq ▸ Nat.le_of_lt hlt)
  rw [newEnd_le_newPc_iff hpair' ⟨_, hpair.symm⟩] at hle
  rw [newEnd_le_newPc_iff hpair ⟨_, hpair'.symm⟩] at hge
  obtain ⟨rfl, hrest⟩ := List.append_inj (hpair.symm.trans hpair') (Nat.le_antisymm hle hge)
  obtain ⟨rfl, -⟩ := List.cons.inj hrest
  omega

/-- Behind an old instruction is where control lands behind the new one. -/
theorem lands_behind (hpair : pairs = before ++ pair :: after) :
    hooks.Lands pairs (oldEnd before + pair.1.length)
      (hooks.newPc before pair + pair.2.length) := by
  rw [← oldEnd_concat, ← HookRefs.newEnd_concat]
  have hsplit : pairs = (before ++ [pair]) ++ after := by simp [hpair]
  exact HookRefs.Lands.of_split hsplit

/-- A range in the new body has an instruction in it, and the calls in front of this, exactly if the
old range had the instruction in it. -/
theorem range_iff (hpair : pairs = before ++ pair :: after) {start start' stop stop' pc : Nat}
    (hstart : hooks.Lands pairs start start') (hstop : hooks.Lands pairs stop stop')
    (hle : hooks.newEnd before ≤ pc) (hpc : pc ≤ hooks.newPc before pair) :
    (start' ≤ pc ∧ pc < stop') ↔ (start ≤ oldEnd before ∧ oldEnd before < stop) := by
  rw [← Nat.not_le, ← Nat.not_le, hstart.le_iff hpair hle hpc, hstop.le_iff hpair hle hpc]

/-- A handler protects the new instructions for what it protected. -/
theorem covers_iff (hpair : pairs = before ++ pair :: after) {g g' : ExceptionHandler}
    (hstart : hooks.Lands pairs g.start.toNat g'.start.toNat)
    (hstop : hooks.Lands pairs g.stop.toNat g'.stop.toNat) :
    g'.Covers (hooks.newPc before pair) ↔ g.Covers (oldEnd before) :=
  range_iff hpair hstart hstop (hooks.newEnd_le_newPc before pair) (Nat.le_refl _)

end HookRefs

/-! ### Moving on -/

namespace Rebuilt

variable {α β : Type} {hooks : HookRefs} {pairs before after : List Replacement}
  {pair : Replacement} {old : CodeOf α} {new : CodeOf β} (h : Rebuilt hooks pairs old new)
  {calm : Nat → Prop} (hcalm : ∀ pc, calm pc ↔ ¬ hooks.Original pairs pc)
include h

/-- What calls a subroutine in the new body is there for an instruction of the old one. -/
theorem calls_new {pc : Nat} {j : Instruction} (hat : new.At pc j)
    (hcalls : j.callsSubroutine = true) :
    ∃ before pair after, pairs = before ++ pair :: after ∧ pc = hooks.newPc before pair
      ∧ j = pair.2 := by
  obtain ⟨p, q, hprologue, -⟩ | ⟨before, pair, after, p, q, hpair, haround, rfl⟩ :=
    h.at_new_iff.1 hat
  · rw [(HookRefs.passes_of_prologue hprologue).callsSubroutine] at hcalls
    cases hcalls
  · rw [HookRefs.around_eq] at haround
    obtain ⟨hsplit, heq, -⟩ | ⟨q', rfl, hsplit⟩ := append_singleton_eq_append_cons haround
    · exact ⟨before, pair, after, hpair, by rw [HookRefs.newPc_eq, hsplit], heq⟩
    · rw [(HookRefs.passes_of_callsBefore hsplit).callsSubroutine] at hcalls
      cases hcalls

/-- To where a new instruction leads, the old one led to what landed there. -/
theorem flow_old_of_new (hpair : pairs = before ++ pair :: after) {target' : Nat}
    (hflow : new.Flow calm (hooks.newPc before pair) target') :
    ∃ target, hooks.Lands pairs target target' ∧ old.Flow (fun _ => False) (oldEnd before) target := by
  have hold := h.at_old hpair
  have hnew := h.at_new hpair
  have hskeleton : pair.2.skeleton = pair.1.skeleton := h.skeleton (by simp [hpair])
  cases hflow with
  | next hat hfalls =>
    obtain rfl := hat.unique hnew
    refine ⟨_, HookRefs.lands_behind hpair, .next hold ?_⟩
    rwa [← Instruction.fallsThrough_skeleton, ← hskeleton, Instruction.fallsThrough_skeleton]
  | jump hat hmem htarget =>
    obtain rfl := hat.unique hnew
    obtain ⟨d, hmem', target, target₁, hlands, htarget', htarget₁⟩ :=
      exists_of_forall₂_right (h.distances hpair) hmem
    obtain rfl : target₁ = target' := by omega
    exact ⟨target, hlands, .jump hold hmem' htarget'⟩
  | subroutineEnd hat hends hcall hcalls =>
    obtain rfl := hat.unique hnew
    obtain ⟨before', pair', after', hpair', rfl, rfl⟩ := h.calls_new hcall hcalls
    have hskeleton' : pair'.2.skeleton = pair'.1.skeleton := h.skeleton (by simp [hpair'])
    refine ⟨_, HookRefs.lands_behind hpair', .subroutineEnd hold ?_ (h.at_old hpair') ?_⟩
    · rwa [← Instruction.endsSubroutine_skeleton, ← hskeleton, Instruction.endsSubroutine_skeleton]
    · rwa [← Instruction.callsSubroutine_skeleton, ← hskeleton',
        Instruction.callsSubroutine_skeleton]
  | raise hat _ hmem hcovers =>
    obtain ⟨g, hmem', hstart, hstop, hhandler, -⟩ := exists_of_forall₂_right h.handlers hmem
    exact ⟨_, hhandler, .raise hold (fun hf => hf) hmem'
      ((HookRefs.covers_iff hpair hstart hstop).1 hcovers)⟩

include hcalm

/-- From where an old instruction leads, the new one leads to where that landed. -/
theorem flow_new_of_old (hpair : pairs = before ++ pair :: after) {target : Nat}
    (hflow : old.Flow (fun _ => False) (oldEnd before) target) :
    ∃ target', hooks.Lands pairs target target' ∧ new.Flow calm (hooks.newPc before pair) target' := by
  have hold := h.at_old hpair
  have hnew := h.at_new hpair
  have hskeleton : pair.2.skeleton = pair.1.skeleton := h.skeleton (by simp [hpair])
  cases hflow with
  | next hat hfalls =>
    obtain rfl := hat.unique hold
    refine ⟨_, HookRefs.lands_behind hpair, .next hnew ?_⟩
    rwa [← Instruction.fallsThrough_skeleton, hskeleton, Instruction.fallsThrough_skeleton]
  | jump hat hmem htarget =>
    obtain rfl := hat.unique hold
    obtain ⟨d', hmem', target₁, target', hlands, htarget₁, htarget'⟩ :=
      exists_of_forall₂_left (h.distances hpair) hmem
    obtain rfl : target₁ = target := by omega
    exact ⟨target', hlands, .jump hnew hmem' htarget'⟩
  | subroutineEnd hat hends hcall hcalls =>
    obtain rfl := hat.unique hold
    obtain ⟨before', pair', after', hpair', rfl, rfl⟩ := h.at_old_iff.1 hcall
    have hskeleton' : pair'.2.skeleton = pair'.1.skeleton := h.skeleton (by simp [hpair'])
    refine ⟨_, HookRefs.lands_behind hpair', .subroutineEnd hnew ?_ (h.at_new hpair') ?_⟩
    · rwa [← Instruction.endsSubroutine_skeleton, hskeleton, Instruction.endsSubroutine_skeleton]
    · rwa [← Instruction.callsSubroutine_skeleton, hskeleton',
        Instruction.callsSubroutine_skeleton]
  | raise hat _ hmem hcovers =>
    obtain ⟨g', hmem', hstart, hstop, hhandler, -⟩ := exists_of_forall₂_left h.handlers hmem
    refine ⟨_, hhandler, .raise hnew ?_ hmem' ((HookRefs.covers_iff hpair hstart hstop).2 hcovers)⟩
    rw [hcalm, not_not]
    exact ⟨before, pair, after, hpair, rfl⟩

/-- **Control moves alike** in both bodies. -/
theorem flow_iff (hpair : pairs = before ++ pair :: after) {target' : Nat} :
    new.Flow calm (hooks.newPc before pair) target'
      ↔ ∃ target, hooks.Lands pairs target target'
          ∧ old.Flow (fun _ => False) (oldEnd before) target := by
  constructor
  · exact h.flow_old_of_new hpair
  · rintro ⟨target, hlands, hflow⟩
    obtain ⟨target₁, hlands₁, hflow₁⟩ := h.flow_new_of_old hcalm hpair hflow
    rwa [hlands.new_unique hlands₁]

end Rebuilt

end AdviceWeaver

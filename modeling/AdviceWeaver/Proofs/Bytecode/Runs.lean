import AdviceWeaver.Proofs.Bytecode.Simulation

/-!
# Runs with hooks

When control visits some instructions of a body, it visits in the body with hooks the prologue, and
then for each of them the calls in front of it and the instruction itself (`HookRefs.Runs`). Such a
run is a path of one body exactly if it is a path of the other, and there are no other paths than
these and their beginnings: from what was put in, control only moves on to what is behind it.

## Main results

* `Rebuilt.path_iff_of_runs` — a run is a path of the new body exactly if it is one of the old body.
* `Rebuilt.exists_runs` — every path of the old body is run.
* `Rebuilt.exists_underway` — every path of the new body is the beginning of a run.
-/

namespace AdviceWeaver

/-- What control visits in the new body when it visits instructions of the old body. -/
inductive HookRefs.Runs (hooks : HookRefs) (pairs : List Replacement) :
    List Visit → List Visit → Prop
  | nil : Runs hooks pairs [] (Body.located 0 hooks.prologue)
  | step {visits visits' : List Visit} {before after : List Replacement} {pair : Replacement} :
      Runs hooks pairs visits visits' → pairs = before ++ pair :: after →
      Runs hooks pairs (visits ++ [(oldEnd before, pair.1)])
        (visits' ++ Body.located (hooks.newEnd before) (hooks.around pair.2))

namespace Rebuilt

variable {α β : Type} {hooks : HookRefs} {pairs before after : List Replacement}
  {pair : Replacement} {old : CodeOf α} {new : CodeOf β} (h : Rebuilt hooks pairs old new)
  {calm : Nat → Prop} (hcalm : ∀ pc, calm pc ↔ ¬ hooks.Original pairs pc)
include h hcalm

/-- Control passes the prologue. -/
theorem arrives_prologue_iff {target : Nat} :
    new.Arrives calm (Body.located 0 hooks.prologue) target
      ↔ target = Body.length hooks.prologue := by
  have hpass : ∀ p j q, hooks.prologue = p ++ j :: q →
      new.At (0 + Body.length p) j ∧ j.Passes ∧ calm (0 + Body.length p) := by
    intro p j q hsplit
    rw [Nat.zero_add, hcalm]
    exact ⟨h.at_new_prologue hsplit, HookRefs.passes_of_prologue hsplit,
      HookRefs.not_original_of_prologue hsplit⟩
  have harrives : new.Arrives calm ([] ++ Body.located 0 hooks.prologue)
      (0 + Body.length hooks.prologue) ↔ new.Arrives calm [] 0 :=
    CodeOf.arrives_located_iff hpass
  simp only [List.nil_append, Nat.zero_add, CodeOf.arrives_nil_iff, iff_true] at harrives
  constructor
  · intro htarget
    obtain hnil | ⟨p, j, hconcat⟩ := List.eq_nil_or_concat' hooks.prologue
    · rw [hnil] at htarget ⊢
      exact CodeOf.arrives_nil_iff.1 htarget
    · obtain ⟨hat, hpasses, hcalm'⟩ := hpass p j [] hconcat
      rw [hconcat, Body.located_append, Body.located, Body.located, CodeOf.arrives_concat_iff,
        CodeOf.flow_iff_of_passes hat hpasses hcalm'] at htarget
      rw [htarget.2, hconcat]
      simp
  · rintro rfl
    exact harrives

/-- Control passes the calls in front of an instruction. -/
theorem arrives_callsBefore_iff (hpair : pairs = before ++ pair :: after) {visits : List Visit} :
    new.Arrives calm
        (visits ++ Body.located (hooks.newEnd before) (hooks.callsBefore pair.2))
        (hooks.newPc before pair)
      ↔ new.Arrives calm visits (hooks.newEnd before) := by
  rw [HookRefs.newPc_eq]
  apply CodeOf.arrives_located_iff
  intro p j q hsplit
  rw [hcalm]
  refine ⟨h.at_new_around hpair (q := q ++ [pair.2]) ?_, HookRefs.passes_of_callsBefore hsplit,
    HookRefs.not_original_of_callsBefore hpair hsplit⟩
  rw [HookRefs.around_eq, hsplit]
  simp

/-- A path goes on around a new instruction exactly where control arrives in front of it. -/
theorem path_around_iff (hpair : pairs = before ++ pair :: after) {visits : List Visit} :
    new.Path calm (visits ++ Body.located (hooks.newEnd before) (hooks.around pair.2))
      ↔ new.Arrives calm visits (hooks.newEnd before) := by
  rw [HookRefs.around_eq, Body.located_append, ← List.append_assoc, Body.located, Body.located,
    CodeOf.path_concat_iff, ← HookRefs.newPc_eq, h.arrives_callsBefore_iff hcalm hpair]
  exact and_iff_left (h.at_new hpair)

/-- A run arrives behind an instruction if it arrived in front of its calls and the instruction leads
on. -/
theorem arrives_around_iff (hpair : pairs = before ++ pair :: after) {visits : List Visit}
    {target : Nat} :
    new.Arrives calm (visits ++ Body.located (hooks.newEnd before) (hooks.around pair.2)) target
      ↔ new.Arrives calm visits (hooks.newEnd before)
        ∧ new.Flow calm (hooks.newPc before pair) target := by
  rw [← h.path_around_iff hcalm hpair, HookRefs.around_eq, Body.located_append,
    ← List.append_assoc, Body.located, Body.located, CodeOf.arrives_concat_iff, HookRefs.newPc_eq]

/-- After a run, control arrives where it arrives in the old body. -/
theorem arrives_iff_of_runs {visits visits' : List Visit} (hruns : hooks.Runs pairs visits visits')
    {target' : Nat} :
    new.Arrives calm visits' target'
      ↔ ∃ target, hooks.Lands pairs target target'
          ∧ old.Arrives (fun _ => False) visits target := by
  induction hruns generalizing target' with
  | nil =>
    have hstart : hooks.Lands pairs (oldEnd []) (hooks.newEnd []) :=
      HookRefs.Lands.of_split (List.nil_append pairs).symm
    have hlands : hooks.Lands pairs 0 (Body.length hooks.prologue) := by
      simpa [HookRefs.newEnd, HookRefs.weave] using hstart
    simp only [h.arrives_prologue_iff hcalm, CodeOf.arrives_nil_iff]
    constructor
    · rintro rfl
      exact ⟨0, hlands, rfl⟩
    · rintro ⟨target, hlands', rfl⟩
      exact hlands'.new_unique hlands
  | @step visits visits' before after pair hruns hpair ih =>
    have hat := h.at_old hpair
    have hlands : hooks.Lands pairs (oldEnd before) (hooks.newEnd before) :=
      HookRefs.Lands.of_split hpair
    simp only [h.arrives_around_iff hcalm hpair, ih, h.flow_iff hcalm hpair,
      CodeOf.arrives_concat_iff, CodeOf.path_concat_iff]
    constructor
    · rintro ⟨⟨pc, hpc, harrives⟩, target, htarget, hflow⟩
      rw [hpc.old_unique hlands] at harrives
      exact ⟨target, htarget, ⟨harrives, hat⟩, hflow⟩
    · rintro ⟨target, htarget, ⟨harrives, -⟩, hflow⟩
      exact ⟨⟨_, hlands, harrives⟩, target, htarget, hflow⟩

/-- **A run** is a path of the new body exactly if it is one of the old body. -/
theorem path_iff_of_runs {visits visits' : List Visit} (hruns : hooks.Runs pairs visits visits') :
    new.Path calm visits' ↔ old.Path (fun _ => False) visits := by
  cases hruns with
  | nil => exact iff_of_true ((h.arrives_prologue_iff hcalm).2 rfl).path CodeOf.Path.nil
  | @step visits visits' before after pair hruns hpair =>
    have hlands : hooks.Lands pairs (oldEnd before) (hooks.newEnd before) :=
      HookRefs.Lands.of_split hpair
    rw [h.path_around_iff hcalm hpair, h.arrives_iff_of_runs hcalm hruns, CodeOf.path_concat_iff]
    constructor
    · rintro ⟨pc, hpc, harrives⟩
      rw [hpc.old_unique hlands] at harrives
      exact ⟨harrives, h.at_old hpair⟩
    · rintro ⟨harrives, -⟩
      exact ⟨_, hlands, harrives⟩

omit hcalm in
/-- **Every path** of the old body is run in the new one. -/
theorem exists_runs {visits : List Visit} (hpath : old.Path (fun _ => False) visits) :
    ∃ visits', hooks.Runs pairs visits visits' := by
  induction visits using List.reverseRecOn with
  | nil => exact ⟨_, .nil⟩
  | append_singleton visits v ih =>
    obtain ⟨harrives, hat⟩ := CodeOf.path_concat_iff.1 hpath
    obtain ⟨visits', hruns⟩ := ih harrives.path
    obtain ⟨pc, i⟩ := v
    obtain ⟨before, pair, after, hpair, rfl, rfl⟩ := h.at_old_iff.1 hat
    exact ⟨_, hruns.step hpair⟩

/-! ### Beginnings of runs -/

omit h hcalm in
/-- From `start` on, control has nowhere to go but along `block`. -/
def Row (new : CodeOf β) (calm : Nat → Prop) (start : Nat) (block : List Instruction) : Prop :=
  ∀ p j q, block = p ++ j :: q → new.At (start + Body.length p) j
    ∧ (q ≠ [] → j.Passes ∧ calm (start + Body.length p))

/-- Control has nowhere to go in the prologue but along it. -/
theorem row_prologue : Row new calm 0 hooks.prologue := by
  intro p j q hsplit
  rw [Nat.zero_add, hcalm]
  exact ⟨h.at_new_prologue hsplit, fun _ =>
    ⟨HookRefs.passes_of_prologue hsplit, HookRefs.not_original_of_prologue hsplit⟩⟩

/-- Control has nowhere to go in front of an instruction but along the calls to it. -/
theorem row_around (hpair : pairs = before ++ pair :: after) :
    Row new calm (hooks.newEnd before) (hooks.around pair.2) := by
  intro p j q hsplit
  refine ⟨h.at_new_around hpair hsplit, fun hne => ?_⟩
  rw [HookRefs.around_eq] at hsplit
  obtain ⟨-, -, hnil⟩ | ⟨q', rfl, hcalls⟩ := append_singleton_eq_append_cons hsplit
  · exact absurd hnil hne
  · rw [hcalm]
    exact ⟨HookRefs.passes_of_callsBefore hcalls,
      HookRefs.not_original_of_callsBefore hpair hcalls⟩

omit h hcalm in
/-- `visits'` is the beginning of a run up to some place in its last block, and control cannot leave
the block before its end. -/
structure Underway (hooks : HookRefs) (pairs : List Replacement) (old : CodeOf α) (new : CodeOf β)
    (calm : Nat → Prop) (visits visits' : List Visit) (start : Nat)
    (passed left : List Instruction) : Prop where
  runs : ∃ front, visits' = front ++ Body.located start passed
    ∧ hooks.Runs pairs visits (front ++ Body.located start (passed ++ left))
  path : old.Path (fun _ => False) visits
  row : Row new calm start (passed ++ left)
  forced {target : Nat} : left ≠ [] → new.Arrives calm visits' target →
    target = start + Body.length passed

omit h hcalm in
/-- Visiting the next instruction of the block. -/
theorem Underway.advance {visits visits' : List Visit} (front : List Visit) (start : Nat)
    (passed : List Instruction) {left : List Instruction} {j : Instruction}
    (hvisits : visits' = front ++ Body.located start passed)
    (hruns : hooks.Runs pairs visits (front ++ Body.located start (passed ++ j :: left)))
    (hpath : old.Path (fun _ => False) visits) (hrow : Row new calm start (passed ++ j :: left)) :
    Underway hooks pairs old new calm visits
      (visits' ++ [(start + Body.length passed, j)]) start (passed ++ [j]) left where
  runs := by
    refine ⟨front, ?_, by simpa using hruns⟩
    rw [hvisits, Body.located_append, List.append_assoc]
    rfl
  path := hpath
  row := by simpa using hrow
  forced := by
    intro target hne harrives
    obtain ⟨hat, hpass⟩ := hrow passed j left rfl
    obtain ⟨hpasses, hcalm⟩ := hpass hne
    rw [CodeOf.arrives_concat_iff, CodeOf.flow_iff_of_passes hat hpasses hcalm] at harrives
    rw [harrives.2]
    simp [Nat.add_assoc]

omit hcalm in
/-- At a place where an instruction starts, a pair stands. -/
theorem exists_pair_of_at {front back : List Replacement} (hsplit : pairs = front ++ back)
    {j : Instruction} (hat : new.At (hooks.newEnd front) j) :
    ∃ pair after q, back = pair :: after ∧ hooks.around pair.2 = j :: q := by
  cases back with
  | nil =>
    obtain ⟨front', back', hdecode, hlength⟩ := hat
    rw [h.decode_new, Except.ok.injEq] at hdecode
    have htotal := congrArg Body.length hdecode
    have hpos := j.length_pos
    rw [List.append_nil] at hsplit
    simp only [Body.length_append, Body.length_cons, hsplit, ← HookRefs.newEnd.eq_1] at htotal
    omega
  | cons pair after =>
    refine ⟨pair, after, ?_⟩
    cases haround : hooks.around pair.2 with
    | nil => simp [HookRefs.around_eq] at haround
    | cons j' q =>
      have hat' := h.at_new_around hsplit (p := []) haround
      rw [hat.unique hat']
      exact ⟨q, rfl, rfl⟩

/-- **Every path** of the new body is the beginning of a run along a path of the old one. -/
theorem exists_underway {visits' : List Visit} (hpath : new.Path calm visits') :
    ∃ visits start passed left, Underway hooks pairs old new calm visits visits' start passed
      left := by
  induction visits' using List.reverseRecOn with
  | nil =>
    refine ⟨[], 0, [], hooks.prologue, ⟨[], rfl, .nil⟩, .nil, h.row_prologue hcalm, ?_⟩
    intro target _ harrives
    exact CodeOf.arrives_nil_iff.1 harrives
  | append_singleton visits' v ih =>
    obtain ⟨harrives, hat⟩ := CodeOf.path_concat_iff.1 hpath
    obtain ⟨visits, start, passed, left, ⟨front, hvisits, hruns⟩, hold, hrow, hforced⟩ :=
      ih harrives.path
    obtain ⟨pc, j⟩ := v
    cases left with
    | cons j' left =>
      obtain rfl : pc = start + Body.length passed := hforced (List.cons_ne_nil j' left) harrives
      obtain rfl := hat.unique (hrow passed j' left rfl).1
      exact ⟨visits, start, passed ++ [j], left, 
        Underway.advance front start passed hvisits hruns hold hrow⟩
    | nil =>
      -- The run is complete, and control arrives at a place.
      rw [List.append_nil, ← hvisits] at hruns
      obtain ⟨target, ⟨before, back, hsplit, rfl, rfl⟩, htarget⟩ :=
        (h.arrives_iff_of_runs hcalm hruns).1 harrives
      obtain ⟨pair, after, q, rfl, haround⟩ := h.exists_pair_of_at hsplit hat
      have hpath' : old.Path (fun _ => False) (visits ++ [(oldEnd before, pair.1)]) :=
        CodeOf.path_concat_iff.2 ⟨htarget, h.at_old hsplit⟩
      have hruns' := hruns.step hsplit
      have hrow' := h.row_around hcalm hsplit
      rw [haround] at hruns' hrow'
      exact ⟨_, hooks.newEnd before, [] ++ [j], q,
        Underway.advance visits' (hooks.newEnd before) [] (List.append_nil visits').symm hruns' hpath'
          hrow'⟩

end Rebuilt

end AdviceWeaver

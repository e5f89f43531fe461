import Mathlib.Data.List.Sort
import AdviceWeaver.Weaving.Plan

/-!
# What a plan says

A plan is made by adding hooks one at a time. It says of every method which hooks that receives, and
if it has no entry without a hook (`WeavePlan.Tight`), that is all it says.

## Main results

* `WeavePlan.hooksOf_add` — adding a hook puts it behind the others of its method.
* `WeavePlan.eq_of_hooksOf_eq` — plans that say the same of every method are the same.
-/

namespace AdviceWeaver.WeavePlan

variable {plan plan' : WeavePlan} {entries : List (Nat × List Hook)} {method index : Nat}
  {hook : Hook} {hooks : List Hook}

/-- No entry lacks hooks. -/
def Tight (plan : WeavePlan) : Prop :=
  ∀ entry ∈ plan.entries, entry.2 ≠ []

/-! ### Entries -/

/-- A method behind all entries but the first is none of them. -/
theorem lookup_eq_none_of_lt (h : ∀ entry ∈ entries, method < entry.1) :
    entries.lookup method = none := by
  refine List.lookup_eq_none_iff.2 fun entry hentry => ?_
  simpa using Nat.ne_of_lt (h entry hentry)

/-- An entry is looked up by its method, as the methods ascend. -/
theorem lookup_eq_some_iff (h : entries.Pairwise fun entry later => entry.1 < later.1) :
    entries.lookup index = some hooks ↔ (index, hooks) ∈ entries := by
  induction entries with
  | nil => simp
  | cons first rest ih =>
    obtain ⟨m, others⟩ := first
    obtain ⟨hfirst, hrest⟩ := List.pairwise_cons.1 h
    by_cases hm : index = m
    · subst hm
      have hnone : (index, hooks) ∉ rest := fun hmem => Nat.lt_irrefl _ (hfirst (index, hooks) hmem)
      simp [hnone, eq_comm]
    · have hne : (index == m) = false := by simpa using hm
      rw [List.lookup_cons, hne, List.mem_cons, ih hrest]
      simp [hm]

/-- A tight plan has an entry for just the methods with hooks. -/
theorem mem_entries_iff (h : plan.Tight) :
    (index, hooks) ∈ plan.entries ↔ plan.hooksOf index = hooks ∧ hooks ≠ [] := by
  rw [← lookup_eq_some_iff plan.ascending, hooksOf]
  constructor
  · intro hlookup
    have hmem := (lookup_eq_some_iff plan.ascending).1 hlookup
    exact ⟨by rw [hlookup]; rfl, h _ hmem⟩
  · rintro ⟨hhooks, hne⟩
    cases hlookup : plan.entries.lookup index with
    | none =>
      rw [hlookup] at hhooks
      exact absurd hhooks.symm hne
    | some others =>
      rw [hlookup] at hhooks
      rw [← hhooks]
      rfl

/-- **Plans that say the same** of every method are the same. -/
theorem eq_of_hooksOf_eq (hplan : plan.Tight) (hplan' : plan'.Tight)
    (h : ∀ index, plan.hooksOf index = plan'.hooksOf index) : plan = plan' := by
  have hirrefl : Std.Irrefl fun entry later : Nat × List Hook => entry.1 < later.1 :=
    ⟨fun entry => Nat.lt_irrefl entry.1⟩
  have hentries : plan.entries = plan'.entries := by
    refine List.Pairwise.eq_of_mem_iff plan.ascending plan'.ascending fun entry => ?_
    rw [mem_entries_iff hplan, mem_entries_iff hplan', h]
  obtain ⟨entries, _⟩ := plan
  cases hentries
  rfl

/-! ### Adding hooks -/

/-- Inserting a hook adds it behind those of its method, and leaves the others, by induction on the
entries. -/
theorem lookup_insert (h : entries.Pairwise fun entry later => entry.1 < later.1) :
    (insert method hook entries).lookup index
      = if index = method then some ((entries.lookup method).getD [] ++ [hook])
        else entries.lookup index := by
  induction entries with
  | nil =>
    by_cases hindex : index = method
    · simp [insert, hindex]
    · have hne : (index == method) = false := by simpa using hindex
      simp [insert, List.lookup_cons, hindex, hne]
  | cons first rest ih =>
    obtain ⟨m, others⟩ := first
    obtain ⟨hfirst, hrest⟩ := List.pairwise_cons.1 h
    simp only [insert]
    by_cases hlt : method < m
    · have hnone : ((m, others) :: rest).lookup method = none := by
        refine lookup_eq_none_of_lt fun entry hentry => ?_
        rcases List.mem_cons.1 hentry with rfl | hentry
        · exact hlt
        · exact Nat.lt_trans hlt (hfirst entry hentry)
      rw [if_pos hlt, hnone]
      by_cases hindex : index = method
      · simp [hindex]
      · have hne : (index == method) = false := by simpa using hindex
        rw [List.lookup_cons, hne, if_neg hindex]
    rw [if_neg hlt]
    by_cases heq : method = m
    · subst heq
      rw [if_pos rfl]
      by_cases hindex : index = method
      · simp [hindex]
      · have hne : (index == method) = false := by simpa using hindex
        simp [List.lookup_cons, hne, hindex]
    rw [if_neg heq]
    by_cases hindex : index = m
    · have hne : index ≠ method := fun h => heq (h.symm.trans hindex)
      simp [hindex, Ne.symm heq]
    · have hne : (index == m) = false := by simpa using hindex
      have hne' : (method == m) = false := by simpa using heq
      rw [List.lookup_cons, hne, ih hrest, List.lookup_cons, hne', List.lookup_cons, hne]

/-- **Adding a hook** puts it behind the others of its method. -/
theorem hooksOf_add (plan : WeavePlan) (method : Nat) (hook : Hook) (index : Nat) :
    (plan.add method hook).hooksOf index
      = plan.hooksOf index ++ if index = method then [hook] else [] := by
  rw [hooksOf, add, lookup_insert plan.ascending]
  split
  · next heq =>
    rw [heq]
    rfl
  · rw [List.append_nil]
    rfl

theorem tight_empty : empty.Tight := nofun

/-- A plan to which a hook is added is tight. -/
theorem Tight.add (h : plan.Tight) (method : Nat) (hook : Hook) :
    (plan.add method hook).Tight := by
  rintro ⟨index, hooks⟩ hentry
  have hlookup := (lookup_eq_some_iff (plan.add method hook).ascending).2 hentry
  rw [WeavePlan.add, lookup_insert plan.ascending] at hlookup
  split at hlookup
  · cases hlookup
    simp
  · exact h _ ((lookup_eq_some_iff plan.ascending).1 hlookup)

end AdviceWeaver.WeavePlan

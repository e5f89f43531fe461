import AdviceWeaver.Bytes

/-!
# Weave plans

Which methods of a class receive which hooks. Methods are named by their position, and a plan keeps
them in that order. Hooks of one method nest: the first one added is entered first and left last.
-/

namespace AdviceWeaver

/-- Calls into one hook class. -/
structure Hook where
  /-- The internal name of the hook class. -/
  hookClass : String
  enter : Bool
  exit : Bool
deriving DecidableEq, Repr, Inhabited

namespace Hook

/-- The static method called before a method body. -/
def enterName : String := "onMethodEnter"

/-- The static method called before each normal return. -/
def exitName : String := "onMethodExit"

/-- The descriptor of both. -/
def descriptor : String := "()V"

end Hook

/-- The hooks by method, in ascending order of the methods. -/
structure WeavePlan where
  entries : List (Nat × List Hook)
  ascending : entries.Pairwise fun entry later => entry.1 < later.1
deriving DecidableEq, Repr

namespace WeavePlan

/-- No hooks. -/
def empty : WeavePlan := ⟨[], .nil⟩

instance : Inhabited WeavePlan := ⟨empty⟩

/-- Whether no method receives a hook. -/
def isEmpty (plan : WeavePlan) : Bool :=
  plan.entries.isEmpty

/-- The number of methods that receive hooks. -/
def size (plan : WeavePlan) : Nat :=
  plan.entries.length

/-- Adds a hook behind the others of the method. -/
def insert (method : Nat) (hook : Hook) : List (Nat × List Hook) → List (Nat × List Hook)
  | [] => [(method, [hook])]
  | (m, hooks) :: rest =>
    if method < m then (method, [hook]) :: (m, hooks) :: rest
    else if method = m then (m, hooks ++ [hook]) :: rest
    else (m, hooks) :: insert method hook rest

/-- Inserting brings in no method but that of the hook. -/
theorem fst_of_mem_insert {method : Nat} {hook : Hook} {entries : List (Nat × List Hook)}
    {entry : Nat × List Hook} (h : entry ∈ insert method hook entries) :
    entry.1 = method ∨ ∃ old ∈ entries, entry.1 = old.1 := by
  induction entries with
  | nil =>
    obtain rfl := List.mem_singleton.1 h
    exact .inl rfl
  | cons first rest ih =>
    obtain ⟨m, hooks⟩ := first
    simp only [insert] at h
    split at h
    · obtain rfl | h := List.mem_cons.1 h
      · exact .inl rfl
      · exact .inr ⟨entry, h, rfl⟩
    split at h
    · next heq =>
      obtain rfl | h := List.mem_cons.1 h
      · exact .inl heq.symm
      · exact .inr ⟨entry, List.mem_cons_of_mem _ h, rfl⟩
    · obtain rfl | h := List.mem_cons.1 h
      · exact .inr ⟨_, List.mem_cons_self, rfl⟩
      · obtain hm | ⟨old, hold, hm⟩ := ih h
        · exact .inl hm
        · exact .inr ⟨old, List.mem_cons_of_mem _ hold, hm⟩

/-- Inserting keeps the order of the methods. -/
theorem pairwise_insert {method : Nat} {hook : Hook} {entries : List (Nat × List Hook)}
    (h : entries.Pairwise fun entry later => entry.1 < later.1) :
    (insert method hook entries).Pairwise fun entry later => entry.1 < later.1 := by
  induction entries with
  | nil => exact List.pairwise_singleton _ _
  | cons first rest ih =>
    obtain ⟨m, hooks⟩ := first
    obtain ⟨hfirst, hrest⟩ := List.pairwise_cons.1 h
    simp only [insert]
    split
    · next hlt =>
      refine List.pairwise_cons.2 ⟨fun later hlater => ?_, h⟩
      obtain rfl | hlater := List.mem_cons.1 hlater
      · exact hlt
      · exact Nat.lt_trans hlt (hfirst later hlater)
    split
    · exact List.pairwise_cons.2 ⟨hfirst, hrest⟩
    · next hge hne =>
      refine List.pairwise_cons.2 ⟨fun later hlater => ?_, ih hrest⟩
      obtain hm | ⟨old, hold, hm⟩ := fst_of_mem_insert hlater
      · simp only [hm]
        omega
      · rw [hm]
        exact hfirst old hold

/-- The plan with one more hook for a method. -/
def add (plan : WeavePlan) (method : Nat) (hook : Hook) : WeavePlan :=
  ⟨insert method hook plan.entries, pairwise_insert plan.ascending⟩

/-- The hooks of a method. -/
def hooksOf (plan : WeavePlan) (method : Nat) : List Hook :=
  (plan.entries.lookup method).getD []

end WeavePlan

end AdviceWeaver

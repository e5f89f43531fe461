import AdviceWeaver.Description.Hierarchy
import Mathlib.Data.List.Perm.Subperm

/-!
# Climbing a hierarchy of names

A frontier grows by the names right above the one that is visited, and visits the names that it met
in the order in which it met them. What is right above a name is left open here (`up`), so nothing
is looked up. `Frontier.After` is what holds of a frontier after some names were visited: the names
met are those visited and those that still wait, and they are the names right above the visited
ones, each where it comes up first.

A walk that ends before its limit has therefore met all names that can be reached, each once, and
the nearer ones first (`Frontier.Enumerates`), whether or not the hierarchy has cycles.

## Main results

* `Frontier.After.step`, `Frontier.After.visit` — what holds after one visit, and after a walk.
* `Frontier.enumerates_walk` — a walk that ends before its limit enumerates the hierarchy.
* `Frontier.Enumerates.unique`, `Frontier.Enumerates.walk_eq_take` — there is only one enumeration,
  and every walk goes through it.
-/

namespace AdviceWeaver.Frontier

/-! ### First occurrences -/

section Lists

variable {α : Type} [DecidableEq α]

/-- Nothing occurs twice in a list without its repetitions. -/
theorem nodup_eraseDups : (l : List α) → l.eraseDups.Nodup
  | [] => List.nodup_nil
  | a :: l => by
    rw [List.eraseDups_cons, List.nodup_cons, List.mem_eraseDups]
    exact ⟨by simp, nodup_eraseDups (l.filter fun b => !b == a)⟩
  termination_by l => l.length
  decreasing_by exact Nat.lt_succ_of_le (List.length_filter_le ..)

/-- What comes up in a front part of a list comes up before what does not. -/
theorem pairwise_eraseDups_append (l l' : List α) :
    (l ++ l').eraseDups.Pairwise fun a b => b ∈ l → a ∈ l := by
  rw [List.eraseDups_append, List.pairwise_append]
  have hfront : ∀ a ∈ l.eraseDups, a ∈ l := fun a => List.mem_eraseDups.1
  have hback : ∀ b ∈ (l'.removeAll l).eraseDups, b ∉ l := fun b hb => by
    have hb := List.mem_eraseDups.1 hb
    simp only [List.removeAll, List.mem_filter] at hb
    simpa using hb.2
  exact ⟨List.pairwise_of_forall_mem_list fun a ha _ _ _ => hfront a ha,
    List.pairwise_of_forall_mem_list fun _ _ b hb hin => absurd hin (hback b hb),
    fun a ha _ _ _ => hfront a ha⟩

end Lists

/-! ### Reaching names -/

variable {up : String → List String} {start done names : List String} {f : Frontier}
  {name : String} {n : Nat}

/-- The name is reached in that many steps: the first one to a name in `start`, each further one to
a name right above the last. -/
inductive Climbs (up : String → List String) (start : List String) : String → Nat → Prop
  | near {name : String} : name ∈ start → Climbs up start name 1
  | far {name next : String} {d : Nat} :
    Climbs up start name d → next ∈ up name → Climbs up start next (d + 1)

/-- A list that has everything right above its names, and the names in `start`, has every name that
can be reached. -/
theorem Climbs.mem_of_subset {d : Nat} (h : Climbs up start name d)
    (hclosed : start ++ names.flatMap up ⊆ names) : name ∈ names := by
  induction h with
  | near hstart => exact hclosed (List.mem_append_left _ hstart)
  | far _ hup ih => exact hclosed (List.mem_append_right _ (List.mem_flatMap.2 ⟨_, ih, hup⟩))

/-- The list has every name that can be reached, each once and none before a nearer one: first
those in `start`, and then those right above each name of the list in turn. -/
structure Enumerates (up : String → List String) (start names : List String) : Prop where
  nodup : names.Nodup
  mem_iff : ∀ name, name ∈ names ↔ ∃ d, Climbs up start name d
  nearest_first : names.Pairwise fun a b => ∀ d, Climbs up start b d → ∃ k ≤ d, Climbs up start a k
  in_turn : names = (start ++ names.flatMap up).eraseDups

namespace Enumerates

/-- The next name is the first one that comes up above the names so far and is not among them. -/
theorem getElem?_eq (h : Enumerates up start names) (i : Nat) :
    names[i]? = (start ++ (names.take i).flatMap up).eraseDups[i]? := by
  have hturn : (start ++ (names.take i).flatMap up ++ (names.drop i).flatMap up).eraseDups
      = names := by
    rw [List.append_assoc, ← List.flatMap_append, List.take_append_drop]
    exact h.in_turn.symm
  rw [List.eraseDups_append] at hturn
  generalize hfront : (start ++ (names.take i).flatMap up).eraseDups = front at hturn ⊢
  obtain hlt | hle := Nat.lt_or_ge i front.length
  · rw [← hturn]
    exact List.getElem?_append_left hlt
  -- Nothing comes up that is not among the names so far, so these are all there are.
  · have hprefix : front <+: names.take i :=
      List.prefix_take_iff.2 ⟨⟨_, hturn⟩, hle⟩
    have hclosed : start ++ (names.take i).flatMap up ⊆ names.take i := by
      intro name hname
      refine hprefix.subset ?_
      rw [← hfront]
      exact List.mem_eraseDups.2 hname
    have hall : names ⊆ names.take i := by
      intro name hname
      obtain ⟨d, hd⟩ := (h.mem_iff name).1 hname
      exact hd.mem_of_subset hclosed
    have hlength := h.nodup.length_le_of_subset hall
    rw [List.length_take] at hlength
    rw [List.getElem?_eq_none hle, List.getElem?_eq_none (by omega)]

/-- **There is only one enumeration.** -/
theorem unique {names' : List String} (h : Enumerates up start names)
    (h' : Enumerates up start names') : names = names' := by
  have htake (i : Nat) : names.take i = names'.take i := by
    induction i with
    | zero => rfl
    | succ i ih => rw [List.take_add_one, List.take_add_one, h.getElem?_eq, h'.getElem?_eq, ih]
  have hall := htake (names.length + names'.length)
  rw [List.take_of_length_le (by omega), List.take_of_length_le (by omega)] at hall
  exact hall

end Enumerates

/-! ### Meeting names -/

/-- Names that are met wait in the queue, in the order in which they were met. -/
theorem met_addNames (h : f.seen.reverse = done ++ f.queue) (names : List String) :
    (names.foldl addName f).seen.reverse = done ++ (names.foldl addName f).queue := by
  induction names generalizing f with
  | nil => exact h
  | cons name names ih =>
    refine ih ?_
    unfold addName
    split
    · exact h
    · rw [List.reverse_cons, h, List.append_assoc]

/-- Names that are met again are not met twice. -/
theorem seen_addNames {met : List String} (h : f.seen.reverse = met.eraseDups)
    (names : List String) :
    (names.foldl addName f).seen.reverse = (met ++ names).eraseDups := by
  induction names generalizing f met with
  | nil => rw [List.append_nil]; exact h
  | cons name names ih =>
    rw [List.append_cons]
    refine ih ?_
    have hmem : name ∈ f.seen ↔ name ∈ met := by
      rw [← List.mem_reverse, h, List.mem_eraseDups]
    rw [List.eraseDups_append, ← h]
    unfold addName
    split
    · next hin => simp [List.removeAll, hmem.1 hin]
    · next hout =>
      have hnew : name ∉ met := fun hin => hout (hmem.2 hin)
      simp [List.removeAll, hnew, List.eraseDups_cons]

/-- What holds of a frontier after the names `done` were visited. -/
structure After (up : String → List String) (start done : List String) (f : Frontier) : Prop where
  met : f.seen.reverse = done ++ f.queue
  in_turn : f.seen.reverse = (start ++ done.flatMap up).eraseDups
  climbed : ∀ name ∈ f.seen, ∃ d, Climbs up start name d

namespace After

/-- What holds before any name was visited: the names to start with wait in the queue. -/
theorem none_visited (up : String → List String) (start : List String) :
    After up start [] (start.foldl addName ⟨[], []⟩) := by
  have hnone : (⟨[], []⟩ : Frontier).seen.reverse = ([] : List String).eraseDups := rfl
  have hseen : (start.foldl addName ⟨[], []⟩).seen.reverse = start.eraseDups :=
    seen_addNames hnone start
  refine ⟨met_addNames rfl start, ?_, fun name hname => ?_⟩
  · rw [List.flatMap_nil, List.append_nil, hseen]
  · rw [← List.mem_reverse, hseen, List.mem_eraseDups] at hname
    exact ⟨1, .near hname⟩

/-- No name is visited twice. -/
theorem nodup (h : After up start done f) : done.Nodup := by
  have hall : (done ++ f.queue).Nodup := by
    rw [← h.met, h.in_turn]
    exact nodup_eraseDups _
  exact (List.nodup_append.1 hall).1

/-- A name that was visited is reached by some climb. -/
theorem climbed_of_mem (h : After up start done f) (hname : name ∈ done) :
    ∃ d, Climbs up start name d := by
  refine h.climbed name (List.mem_reverse.1 ?_)
  rw [h.met]
  exact List.mem_append_left _ hname

/-- **One visit**, to the name that has waited longest. -/
theorem step (h : After up start done f) {rest : List String} (hqueue : f.queue = name :: rest) :
    After up start (done ++ [name]) ((up name).foldl addName ⟨f.seen, rest⟩) := by
  have hmet : f.seen.reverse = done ++ [name] ++ rest := by
    rw [h.met, hqueue, List.append_cons]
  have hseen : ((up name).foldl addName ⟨f.seen, rest⟩).seen.reverse
      = (start ++ (done ++ [name]).flatMap up).eraseDups := by
    rw [List.flatMap_append, ← List.append_assoc, List.flatMap_singleton]
    exact seen_addNames (f := ⟨f.seen, rest⟩) h.in_turn (up name)
  refine ⟨met_addNames hmet (up name), hseen, fun next hnext => ?_⟩
  rw [← List.mem_reverse, hseen, List.mem_eraseDups, List.mem_append] at hnext
  obtain hstart | habove := hnext
  · exact ⟨1, .near hstart⟩
  · obtain ⟨below, hbelow, hup⟩ := List.mem_flatMap.1 habove
    have hseen : below ∈ f.seen := by
      rw [← List.mem_reverse, hmet]
      exact List.mem_append_left _ hbelow
    obtain ⟨d, hd⟩ := h.climbed below hseen
    exact ⟨d + 1, hd.far hup⟩

/-- When no name waits any more, those that were visited are an enumeration. -/
theorem enumerates (h : After up start done f) (hqueue : f.queue = []) :
    Enumerates up start done := by
  have hturn : done = (start ++ done.flatMap up).eraseDups := by
    rw [← h.in_turn, h.met, hqueue, List.append_nil]
  have hclosed : start ++ done.flatMap up ⊆ done := by
    intro name hname
    rw [hturn]
    exact List.mem_eraseDups.2 hname
  have hmem (name : String) : name ∈ done ↔ ∃ d, Climbs up start name d :=
    ⟨h.climbed_of_mem, fun ⟨_, hd⟩ => hd.mem_of_subset hclosed⟩
  refine ⟨h.nodup, hmem, ?_, hturn⟩
  -- Each name before one that is `d` steps away is right above some name that was visited no later
  -- than the last but one on these steps, or in `start` if there is none.
  rw [List.pairwise_iff_forall_sublist]
  intro a b hab d hd
  induction hd generalizing a with
  | near hstart =>
    have hfirst := pairwise_eraseDups_append start (done.flatMap up)
    rw [← hturn, List.pairwise_iff_forall_sublist] at hfirst
    exact ⟨1, Nat.le_refl _, .near (hfirst hab hstart)⟩
  | @far below b d hbelow hup ih =>
    obtain ⟨before, after, hsplit⟩ := List.append_of_mem ((hmem below).2 ⟨d, hbelow⟩)
    have hfirst := pairwise_eraseDups_append (start ++ (before ++ [below]).flatMap up)
      (after.flatMap up)
    have hwhole : start ++ (before ++ [below]).flatMap up ++ after.flatMap up
        = start ++ done.flatMap up := by
      rw [List.append_assoc, ← List.flatMap_append, List.append_assoc, List.singleton_append,
        ← hsplit]
    rw [hwhole, ← hturn, List.pairwise_iff_forall_sublist] at hfirst
    have hb : b ∈ start ++ (before ++ [below]).flatMap up :=
      List.mem_append_right _ (List.mem_flatMap.2 ⟨below, by simp, hup⟩)
    obtain hstart | habove := List.mem_append.1 (hfirst hab hb)
    · exact ⟨1, by omega, .near hstart⟩
    · obtain ⟨c, hc, hca⟩ := List.mem_flatMap.1 habove
      obtain hc | hc := List.mem_append.1 hc
      · have hcb : [c, below].Sublist done := by
          rw [hsplit]
          exact (List.singleton_sublist.2 hc).append (by simp)
        obtain ⟨k, hk, hclimbs⟩ := ih hcb
        exact ⟨k + 1, by omega, hclimbs.far hca⟩
      · obtain rfl := List.mem_singleton.1 hc
        exact ⟨d + 1, Nat.le_refl _, hbelow.far hca⟩

end After

/-! ### Walks -/

/-- The names that a frontier visits, at most `limit`. -/
def visit (up : String → List String) : Nat → Frontier → List String
  | 0, _ => []
  | limit + 1, f =>
    match f.queue with
    | [] => []
    | name :: rest => name :: visit up limit ((up name).foldl addName ⟨f.seen, rest⟩)

/-- Nothing is visited where no name waits. -/
theorem visit_nil (h : f.queue = []) (n : Nat) : visit up n f = [] := by
  cases n with
  | zero => rfl
  | succ n => simp only [visit, h]

/-- The name that waits in front is visited, and what is above it waits behind the others. -/
theorem visit_cons {rest : List String} (h : f.queue = name :: rest) (n : Nat) :
    visit up (n + 1) f = name :: visit up n ((up name).foldl addName ⟨f.seen, rest⟩) := by
  simp only [visit, h]

/-- **A walk** comes after as many names as it visited, and if these are fewer than it might have
visited, then none is left. -/
theorem After.visit (h : After up start done f) (n : Nat) :
    ∃ f', After up start (done ++ visit up n f) f'
      ∧ ((Frontier.visit up n f).length < n → f'.queue = []) := by
  induction n generalizing done f with
  | zero => exact ⟨f, by rw [Frontier.visit, List.append_nil]; exact h, nofun⟩
  | succ n ih =>
    cases hqueue : f.queue with
    | nil =>
      rw [visit_nil hqueue, List.append_nil]
      exact ⟨f, h, fun _ => hqueue⟩
    | cons name rest =>
      obtain ⟨f', hafter, hend⟩ := ih (h.step hqueue)
      rw [visit_cons hqueue, List.append_cons]
      exact ⟨f', hafter, fun hlt => hend (Nat.lt_of_succ_lt_succ hlt)⟩

/-- A walk with a lower limit is cut short, and nothing else. -/
theorem visit_eq_take {m : Nat} (h : n ≤ m) : visit up n f = (visit up m f).take n := by
  induction n generalizing m f with
  | zero => rfl
  | succ n ih =>
    obtain ⟨m, rfl⟩ : ∃ k, m = k + 1 := ⟨m - 1, by omega⟩
    cases hqueue : f.queue with
    | nil => rw [visit_nil hqueue, visit_nil hqueue, List.take_nil]
    | cons name rest =>
      rw [visit_cons hqueue, visit_cons hqueue, List.take_succ_cons, ih (Nat.le_of_succ_le_succ h)]

/-- The walk above the names of `start` and the names right above these, and so on. -/
def walk (up : String → List String) (start : List String) (limit : Nat) : List String :=
  visit up limit (start.foldl addName ⟨[], []⟩)

/-- A walk visits no name twice. -/
theorem nodup_walk : (walk up start n).Nodup := by
  obtain ⟨f', hafter, -⟩ := (After.none_visited up start).visit n
  exact hafter.nodup

/-- A walk visits only names that are reached by some climb. -/
theorem climbs_of_mem_walk (h : name ∈ walk up start n) : ∃ d, Climbs up start name d := by
  obtain ⟨f', hafter, -⟩ := (After.none_visited up start).visit n
  exact hafter.climbed_of_mem h

/-- **A walk that ends before its limit** enumerates the hierarchy. -/
theorem enumerates_walk (h : (walk up start n).length < n) :
    Enumerates up start (walk up start n) := by
  obtain ⟨f', hafter, hend⟩ := (After.none_visited up start).visit n
  exact hafter.enumerates (hend h)

/-- If only certain names can be reached, then a walk that may visit one more ends before its
limit. -/
theorem length_walk_lt {all : List String} (h : ∀ name d, Climbs up start name d → name ∈ all) :
    (walk up start (all.length + 1)).length < all.length + 1 := by
  refine Nat.lt_succ_of_le (nodup_walk.length_le_of_subset fun name hname => ?_)
  obtain ⟨d, hd⟩ := climbs_of_mem_walk hname
  exact h name d hd

/-- There is an enumeration if only finitely many names can be reached. -/
theorem exists_enumerates (all : List String) (h : ∀ name d, Climbs up start name d → name ∈ all) :
    ∃ names, Enumerates up start names :=
  ⟨_, enumerates_walk (length_walk_lt h)⟩

/-- **Every walk** goes through the enumeration, as far as its limit allows. -/
theorem Enumerates.walk_eq_take (h : Enumerates up start names) (n : Nat) :
    walk up start n = names.take n := by
  have hlt := length_walk_lt fun name d hd => (h.mem_iff name).2 ⟨d, hd⟩
  have hall : walk up start (names.length + 1) = names := (enumerates_walk hlt).unique h
  obtain hle | hle := Nat.le_total n (names.length + 1)
  · rw [walk, visit_eq_take hle, ← walk, hall]
  · have hcut : walk up start (names.length + 1) = (walk up start n).take (names.length + 1) :=
      visit_eq_take hle
    rw [hall] at hcut
    have hlength := congrArg List.length hcut
    rw [List.length_take] at hlength
    rw [List.take_of_length_le (by omega)] at hcut ⊢
    exact hcut.symm

end AdviceWeaver.Frontier

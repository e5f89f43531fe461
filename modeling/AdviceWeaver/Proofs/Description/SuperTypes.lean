import AdviceWeaver.Hosting.Memory
import AdviceWeaver.Proofs.Description.Climbing
import AdviceWeaver.Proofs.Description.Seeing
import AdviceWeaver.Proofs.Sequencing

/-!
# The super types of a type

Collecting the super types of a type visits the names of the hierarchy in the order of its
enumeration (`Frontier.Enumerates`) and stops at the first one that does not resolve. The bound on
the steps is never felt: a walk that it would cut short has met a name that does not resolve.

## Main results

* `TypeDescription.exists_enumerates` — the names of the hierarchy, which may have cycles.
* `TypeDescription.superTypes_enumerates` — the super types, or why they cannot be told.
-/

namespace AdviceWeaver

open Act Frontier

variable {ε : Type}

/-- The names right above a name, the super class first; none above one that does not resolve. -/
def namesAbove (answer : String → Except MatchError TypeDescription) (name : String) :
    List String :=
  match answer name with
  | .ok u => u.superNames
  | .error _ => []

/-- The names above a type that is described are its super class and interfaces. -/
theorem namesAbove_eq {answer : String → Except MatchError TypeDescription} {name : String}
    {u : TypeDescription} (h : answer name = .ok u) : namesAbove answer name = u.superNames := by
  simp only [namesAbove, h]

namespace TypeDescription

variable {ops : LoaderOps ε} {good : Session ε → Prop} {t : TypeDescription}
  {answer : String → Except MatchError TypeDescription} {pooled names : List String}

/-! ### Names that can be reached -/

/-- What can be reached and resolves is right above the type, or the root, or a name of the pool. -/
theorem mem_of_climbs (hpooled : ResolvesIn answer pooled) {name : String} {d : Nat}
    {v : TypeDescription} (h : Climbs (namesAbove answer) t.superNames name d)
    (hname : answer name = .ok v) : name ∈ t.superNames ++ rootClass :: pooled := by
  cases h with
  | near hstart => exact List.mem_append_left _ hstart
  | @far below _ _ _ hup =>
    refine List.mem_append_right _ (List.mem_cons.2 ?_)
    unfold namesAbove at hup
    split at hup
    · next u hbelow => exact hpooled below u name v hbelow hup hname
    · cases hup

/-- Only finitely many names can be reached. -/
theorem exists_enumerates (t : TypeDescription) (hpooled : ResolvesIn answer pooled) :
    ∃ names, Enumerates (namesAbove answer) t.superNames names := by
  refine Frontier.exists_enumerates (t.superNames
    ++ (t.superNames ++ rootClass :: pooled).flatMap (namesAbove answer)) fun name d h => ?_
  cases h with
  | near hstart => exact List.mem_append_left _ hstart
  | @far below _ _ hbelow hup =>
    refine List.mem_append_right _ (List.mem_flatMap.2 ⟨below, ?_, hup⟩)
    cases hresolved : answer below with
    | ok u => exact mem_of_climbs hpooled hbelow hresolved
    | error e => simp [namesAbove, hresolved] at hup

/-- An enumeration that is cut by the bound on the steps has a name that does not resolve. -/
theorem take_eq_or_fails (hpooled : ResolvesIn answer pooled)
    (hnames : Enumerates (namesAbove answer) t.superNames names) {n : Nat}
    (hn : t.superNames.length + pooled.length + 2 ≤ n) :
    names.take n = names ∨ ∃ bad ∈ names.take n, ∃ e, answer bad = .error e := by
  by_cases hall : ∀ name ∈ names.take n, ∃ u, answer name = .ok u
  -- All of them resolve, so there are fewer than the bound allows for.
  · left
    have hsubset : names.take n ⊆ t.superNames ++ rootClass :: pooled := by
      intro name hname
      obtain ⟨u, hu⟩ := hall name hname
      obtain ⟨d, hd⟩ := (hnames.mem_iff name).1 (List.mem_of_mem_take hname)
      exact mem_of_climbs hpooled hd hu
    have hlength := (hnames.nodup.sublist (List.take_sublist n names)).length_le_of_subset hsubset
    rw [List.length_take, List.length_append, List.length_cons] at hlength
    exact List.take_of_length_le (by omega)
  · right
    simp only [not_forall] at hall
    obtain ⟨bad, hbad, hfails⟩ := hall
    refine ⟨bad, hbad, ?_⟩
    cases hanswer : answer bad with
    | ok u => exact absurd ⟨u, hanswer⟩ hfails
    | error e => exact ⟨e, rfl⟩

/-! ### Collecting the super types -/

/-- Descriptions are collected for the names that are visited, until one does not resolve. -/
theorem Sees.settles_superTypesFrom (h : t.Sees ops good answer) (n : Nat) (f : Frontier)
    (done : List TypeDescription) :
    Settles good (superTypesFrom ops t n f done)
      (.ok (((visit (namesAbove answer) n f).mapM answer).map (done.reverse ++ ·))) := by
  have hfinished (done : List TypeDescription) :
      Settles good (pure (.ok done.reverse) : Act ε (Except MatchError (List TypeDescription)))
        (.ok ((([] : List String).mapM answer).map (done.reverse ++ ·))) := by
    have hnil : (([] : List String).mapM answer).map (done.reverse ++ ·) = .ok done.reverse :=
      congrArg Except.ok (List.append_nil _)
    rw [hnil]
    exact settles_pure _
  induction n generalizing f done with
  | zero => exact hfinished done
  | succ n ih =>
    unfold superTypesFrom
    cases hqueue : f.queue with
    | nil =>
      rw [visit_nil hqueue]
      exact hfinished done
    | cons name rest =>
      rw [visit_cons hqueue, List.mapM_cons]
      refine (h.resolve name).bind ?_
      cases hname : answer name with
      | error e => exact settles_pure _
      | ok u =>
        rw [namesAbove_eq hname]
        have hrest := ih ((Frontier.mk f.seen rest).add u) (u :: done)
        unfold Frontier.add at hrest ⊢
        cases hcollected : (visit (namesAbove answer) n
          (u.superNames.foldl addName ⟨f.seen, rest⟩)).mapM answer with
        | error e =>
          rw [hcollected] at hrest
          exact hrest
        | ok us =>
          have hjoin : done.reverse ++ u :: us = (u :: done).reverse ++ us := by
            rw [List.reverse_cons, ← List.append_cons]
          rw [hcollected] at hrest
          show Settles good _ (.ok (Except.ok (done.reverse ++ u :: us)))
          rw [hjoin]
          exact hrest

/-- Whatever the limit is above the bound on the steps, it makes no difference. -/
theorem Sees.settles_superTypesFrom_above (h : t.Sees ops good answer)
    (hpooled : ResolvesIn answer pooled)
    (hnames : Enumerates (namesAbove answer) t.superNames names) {n : Nat}
    (hn : t.superNames.length + pooled.length + 2 ≤ n) :
    Settles good (superTypesFrom ops t n (.above t) []) (.ok (names.mapM answer)) := by
  have hwalk : visit (namesAbove answer) n (.above t) = names.take n := hnames.walk_eq_take n
  have hsame : (names.take n).mapM answer = names.mapM answer := by
    obtain hwhole | hfails := take_eq_or_fails hpooled hnames hn
    · rw [hwhole]
    · obtain ⟨e, he⟩ := exists_mapM_eq_error_iff.2 hfails
      have hmore := mapM_append_of_eq_error he (names.drop n)
      rw [List.take_append_drop] at hmore
      rw [he, hmore]
  have hfrom := h.settles_superTypesFrom n (.above t) []
  have hid (r : Except MatchError (List TypeDescription)) :
      r.map ((([] : List TypeDescription).reverse) ++ ·) = r := by
    cases r <;> rfl
  rw [hwalk, hsame, hid] at hfrom
  exact hfrom

/-- The bound on the steps. -/
theorem exists_limit {s : Session ε}
    (hcount : pooled.length ≤ (t.pool.map (TypePool.extent ops s)).getD 0) :
    ∃ n, t.superNames.length + pooled.length + 2 ≤ n ∧ (t.stepLimit ops).run s = (.ok n, s) :=
  ⟨t.superNames.length + (t.pool.map (TypePool.extent ops s)).getD 0 + 2, by omega, rfl⟩

/-- The super types of a type are the answers for the names in the order in which they are climbed, or
the first failure. -/
theorem Sees.settles_superTypes (h : t.Sees ops good answer)
    (hnames : Enumerates (namesAbove answer) t.superNames names) :
    Settles good (t.superTypes ops) (.ok (names.mapM answer)) := by
  obtain ⟨pooled, hpooled, hcount⟩ := h.finite
  intro s hs
  obtain ⟨n, hn, hrun⟩ := exists_limit (hcount s hs)
  obtain ⟨s', hrest, hs'⟩ := h.settles_superTypesFrom_above hpooled hnames hn s hs
  exact ⟨s', (run_bind_ok hrun).trans hrest, hs'⟩

/-- Types that have the names under which they were found are told by their names. -/
theorem describes_names (hnamed : ∀ name u, answer name = .ok u → u.name = name)
    {us : List TypeDescription} (h : List.Forall₂ (fun name u => answer name = .ok u) names us) :
    us.map TypeDescription.name = names ∧ ∀ u ∈ us, answer u.name = .ok u := by
  induction h with
  | nil => exact ⟨rfl, nofun⟩
  | @cons name u names us hu _ ih =>
    obtain ⟨hnames, hanswers⟩ := ih
    have hname := hnamed name u hu
    exact ⟨by rw [List.map_cons, hname, hnames],
      List.forall_mem_cons.2 ⟨hname ▸ hu, hanswers⟩⟩

/-- **The super types of a type** are told by the enumeration of the names above it: a walk of any
length beyond some bound comes to the same result. If all names that can be reached resolve, as the
root does, then this is one description for each of them; and it is a failure exactly if some of
them does not resolve, and then that of the first one. -/
theorem superTypes_enumerates (h : t.Sees ops good answer)
    (hnamed : ∀ name u, answer name = .ok u → u.name = name) :
    ∃ names result, Enumerates (namesAbove answer) t.superNames names
      ∧ Settles good (t.superTypes ops) (.ok result)
      ∧ (∃ n, ∀ limit ≥ n, Settles good (superTypesFrom ops t limit (.above t) []) (.ok result))
      ∧ (∀ s, good s → answer rootClass = .ok (ofName rootClass))
      ∧ ((∀ name d, Climbs (namesAbove answer) t.superNames name d → ∃ u, answer name = .ok u) →
        ∃ us, result = .ok us ∧ us.map TypeDescription.name = names
          ∧ ∀ u ∈ us, answer u.name = .ok u)
      ∧ (∀ e, result = .error e ↔ ∃ before bad after, names = before ++ bad :: after
        ∧ (∀ name ∈ before, ∃ u, answer name = .ok u) ∧ answer bad = .error e)
      ∧ ((∃ e, result = .error e) ↔ ∃ name d e,
        Climbs (namesAbove answer) t.superNames name d ∧ answer name = .error e) := by
  obtain ⟨pooled, hpooled, hcount⟩ := h.finite
  obtain ⟨names, hnames⟩ := exists_enumerates t hpooled
  have hfails : (∃ e, names.mapM answer = .error e) ↔ ∃ name d e,
      Climbs (namesAbove answer) t.superNames name d ∧ answer name = .error e := by
    rw [exists_mapM_eq_error_iff]
    constructor
    · rintro ⟨name, hname, e, he⟩
      obtain ⟨d, hd⟩ := (hnames.mem_iff name).1 hname
      exact ⟨name, d, e, hd, he⟩
    · rintro ⟨name, d, e, hd, he⟩
      exact ⟨name, (hnames.mem_iff name).2 ⟨d, hd⟩, e, he⟩
  refine ⟨names, names.mapM answer, hnames, h.settles_superTypes hnames,
    ⟨_, fun limit hlimit => h.settles_superTypesFrom_above hpooled hnames hlimit⟩,
    fun s hs => h.root hs, fun hall => ?_, fun e => mapM_eq_error_iff, hfails⟩
  cases hresult : names.mapM answer with
  | error e =>
    obtain ⟨name, d, e', hd, he'⟩ := hfails.1 ⟨e, hresult⟩
    obtain ⟨u, hu⟩ := hall name d hd
    rw [hu] at he'
    cases he'
  | ok us =>
    exact ⟨us, rfl, describes_names hnamed (mapM_eq_ok_iff.1 hresult)⟩

/-- A class, its super class and their interface, which leads back to the class. -/
theorem superTypes_enumerates_leaf :
    Enumerates (namesAbove (rooted (describedAnswer leafTypes))) leaf.superNames
        ["Base", "Face", "java.lang.Object", "Leaf"]
      ∧ ∃ us, ((leaf.superTypes MemoryHost.loaderOps).run (leafSession (.new #[]))).1 = .ok (.ok us)
        ∧ us.map TypeDescription.name = ["Base", "Face", "java.lang.Object", "Leaf"] := by
  obtain ⟨names, result, hnames, hsettles, -, -, hresolve, -, -⟩ :=
    superTypes_enumerates (sees_leafTypes MemoryHost.loaderOps (t := leaf) rfl)
      fun _ _ => name_of_leafTypes
  obtain rfl : names = ["Base", "Face", "java.lang.Object", "Leaf"] :=
    hnames.unique (enumerates_walk (n := 5) (by decide +kernel))
  have hok : ∀ name ∈ ["Base", "Face", "java.lang.Object", "Leaf"],
      (rooted (describedAnswer leafTypes) name).isOk = true := by
    decide +kernel
  obtain ⟨us, rfl, hus, -⟩ := hresolve fun name d hd =>
    exists_of_isOk (hok name ((hnames.mem_iff name).2 ⟨d, hd⟩))
  exact ⟨hnames, us, hsettles.run_eq ⟨_, rfl, rfl⟩, hus⟩

end TypeDescription

end AdviceWeaver

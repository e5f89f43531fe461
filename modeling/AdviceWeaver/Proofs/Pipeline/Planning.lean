import AdviceWeaver.Pipeline.Basic
import AdviceWeaver.Proofs.Pipeline.Questions
import AdviceWeaver.Proofs.Weaving.Plans

/-!
# The plan of a pipeline

Rules plan one after the other, and each asks about one method after the other. What comes out can be
told method by method: a method receives the hooks of the rules that apply to it, in the order of the
rules (`Pipeline.planFor`).

## Main results

* `Pipeline.settles_planRules` — the rules settle on the plan that says this.
-/

namespace AdviceWeaver

open Act

variable {ε : Type} {ops : LoaderOps ε} {fits : ε → Prop} {home : Option Home} {size : Nat}
  {records : Array (List String)} {s : Session ε} {t : TypeDescription} {l : LoaderDescription}

/-! ### Which rules apply -/

namespace Rule

/-- Whether a rule wants a method of a class that it matches: its method matcher answers with yes,
and the method has a body. -/
def wants (ops : LoaderOps ε) (s : Session ε) (r : Rule) (m : MethodDescription) : Bool :=
  Pipeline.hasBody m && r.methods.agrees ops s m

/-- Whether a rule applies to a method of a class: its matchers answer with yes on the loader, the
class and the method, and the method has a body. -/
def applies (ops : LoaderOps ε) (s : Session ε) (r : Rule) (l : LoaderDescription)
    (t : TypeDescription) (m : MethodDescription) : Bool :=
  r.loaders.agrees ops s l && r.types.agrees ops s t && r.wants ops s m

end Rule

namespace Pipeline

/-- The hooks of the rules that apply to a method. -/
def hooksFor (ops : LoaderOps ε) (s : Session ε) (rules : List Rule) (l : LoaderDescription)
    (t : TypeDescription) (m : MethodDescription) : List Hook :=
  (rules.filter fun r => r.applies ops s l t m).map Rule.hookCall

/-- The plan that gives each method of a class the hooks of the rules that apply to it. -/
def planFor (ops : LoaderOps ε) (s : Session ε) (rules : List Rule) (l : LoaderDescription)
    (t : TypeDescription) : WeavePlan where
  entries := t.methods.zipIdx.filterMap fun (m, index) =>
    if hooksFor ops s rules l t m = [] then none else some (index, hooksFor ops s rules l t m)
  ascending := by
    have hindexes : t.methods.zipIdx.Pairwise fun entry later => entry.2 < later.2 := by
      rw [← List.pairwise_map (f := Prod.snd) (R := (· < ·)), List.zipIdx_map_snd]
      exact List.pairwise_lt_range'
    refine List.Pairwise.filterMap _ (fun entry later hlt hooks h hooks' h' => ?_) hindexes
    dsimp only at h h'
    split at h
    · cases h
    split at h'
    · cases h'
    cases h
    cases h'
    exact hlt

/-- A method is in the plan with its hooks if some rule applies to it. -/
theorem mem_entries_planFor {rules : List Rule} {index : Nat} {hooks : List Hook} :
    (index, hooks) ∈ (planFor ops s rules l t).entries
      ↔ hooks ≠ [] ∧ ∃ m, t.methods[index]? = some m ∧ hooksFor ops s rules l t m = hooks := by
  rw [planFor, List.mem_filterMap]
  constructor
  · rintro ⟨⟨m, number⟩, hmem, h⟩
    dsimp only at h
    split at h
    · cases h
    · next hne =>
      cases h
      exact ⟨hne, m, List.mk_mem_zipIdx_iff_getElem?.1 hmem, rfl⟩
  · rintro ⟨hne, m, hm, rfl⟩
    refine ⟨(m, index), List.mk_mem_zipIdx_iff_getElem?.2 hm, ?_⟩
    exact if_neg hne

theorem tight_planFor (rules : List Rule) : (planFor ops s rules l t).Tight :=
  fun _ hentry => (mem_entries_planFor.1 hentry).1

/-- A method has in the plan the hooks of the rules that apply to it. -/
theorem hooksOf_planFor (rules : List Rule) (index : Nat) :
    (planFor ops s rules l t).hooksOf index
      = ((t.methods[index]?).map (hooksFor ops s rules l t)).getD [] := by
  by_cases hempty : ((t.methods[index]?).map (hooksFor ops s rules l t)).getD [] = []
  · rw [hempty]
    by_contra hne
    obtain ⟨-, m, hm, hhooks⟩ := mem_entries_planFor.1
      ((WeavePlan.mem_entries_iff (tight_planFor rules)).2 ⟨rfl, hne⟩)
    rw [hm, Option.map_some, Option.getD_some, hhooks] at hempty
    exact hne hempty
  · cases hm : t.methods[index]? with
    | none => simp [hm] at hempty
    | some m =>
      rw [hm] at hempty
      have hmem := mem_entries_planFor.2 ⟨hempty, m, hm, rfl⟩
      exact ((WeavePlan.mem_entries_iff (tight_planFor rules)).1 hmem).1

/-! ### Loaders in the log -/

/-- Logging a loader and those above it is safe, by induction on how far it climbs. -/
theorem safe_logLoaders (hops : ops.Reliable fits) (r : Rule) (isParent : Bool) (depth : Nat)
    (loader : Option LoaderId) :
    Safe (Session.Coherent ops fits home size records) (logLoaders ops r isParent depth loader) := by
  have hlog (level : Level) (message : String) (fields : List (String × String)) :
      Safe (Session.Coherent ops fits home size records) (log level message fields) :=
    (Session.Coherent.settles_log level message fields).safe
  have hrelease (isParent : Bool) (id : LoaderId) :
      Safe (Session.Coherent ops fits home size records)
        (if isParent then ops.release id else pure ()) := by
    cases isParent with
    | false => exact (settles_pure ()).safe
    | true => exact Session.Coherent.safe_of_fit (hops.release id)
  induction depth generalizing isParent loader with
  | zero =>
    cases loader with
    | none => exact hlog _ _ _
    | some id => exact (hlog _ _ _).bind fun _ => hrelease isParent id
  | succ depth ih =>
    cases loader with
    | none => exact hlog _ _ _
    | some id =>
      obtain ⟨d, hd⟩ := hops.describe id
      have hdescribe : Safe (Session.Coherent ops fits home size records) (ops.describe id) :=
        (Session.Coherent.settles_of_fit hd).safe
      refine (Session.Coherent.safe_of_fit (hops.canLoad id _)).bind fun _ => ?_
      refine hdescribe.bind fun _ => (hlog _ _ _).bind fun _ => ?_
      refine (Session.Coherent.safe_of_fit (hops.parent id)).bind fun above => ?_
      rcases above with e | above
      · exact (hlog _ _ _).bind fun _ => hrelease isParent id
      · cases isParent with
        | false => exact ih true above
        | true => exact (hrelease true id).bind fun _ => ih true above

/-- The hierarchy of a loader is logged, with no trace but in the journal. -/
theorem settles_logLoaderHierarchy (hops : ops.Reliable fits) (r : Rule)
    (loader : Option LoaderId) :
    Settles (Session.Coherent ops fits home size records) (logLoaderHierarchy ops r loader)
      (.ok ()) :=
  (Session.Coherent.settles_log _ _ _).bind (safe_logLoaders hops r false _ loader).settles

/-! ### One rule -/

/-- What a rule adds to the numbered methods of a class, beginning with the first of them. -/
theorem ite_wants_cons (r : Rule) (m : MethodDescription) (rest : List MethodDescription)
    (first index : Nat) :
    (if first ≤ index ∧ ((m :: rest)[index - first]?).any (r.wants ops s)
      then [r.hookCall] else [])
      = (if index = first ∧ r.wants ops s m then [r.hookCall] else [])
        ++ if first + 1 ≤ index ∧ (rest[index - (first + 1)]?).any (r.wants ops s)
          then [r.hookCall] else [] := by
  by_cases heq : index = first
  · subst heq
    simp
  by_cases hle : first ≤ index
  · obtain ⟨k, rfl⟩ : ∃ k, index = first + 1 + k := ⟨index - (first + 1), by omega⟩
    have hsub : first + 1 + k - first = k + 1 := by omega
    simp only [heq, hle, hsub, Nat.le_add_right, Nat.add_sub_cancel_left, true_and, false_and,
      List.getElem?_cons_succ, if_false, List.nil_append]
  · have hlt : ¬ first + 1 ≤ index := by omega
    simp only [heq, hle, hlt, false_and, if_false, List.nil_append]

/-- **A rule that matches the class** adds its hook to each method that it wants; the methods are
numbered from `first` on. -/
theorem settles_planMethods (hops : ops.Reliable fits)
    (hs : s.Coherent ops fits home size records) (r : Rule) (methods : List MethodDescription)
    (first : Nat) {plan : WeavePlan} (hplan : plan.Tight) :
    ∃ plan' : WeavePlan,
      Settles (Session.Coherent ops fits home size records)
        (planMethods ops r plan (methods.zipIdx first)) (.ok plan')
      ∧ plan'.Tight
      ∧ ∀ index, plan'.hooksOf index = plan.hooksOf index
          ++ if first ≤ index ∧ (methods[index - first]?).any (r.wants ops s)
            then [r.hookCall] else [] := by
  induction methods generalizing first plan with
  | nil => exact ⟨plan, settles_pure _, hplan, by simp⟩
  | cons m rest ih =>
    have hmatches := r.settles_matchesMethod hops hs m
    by_cases hwants : r.wants ops s m = true
    · obtain ⟨hbody, hagrees⟩ := Bool.and_eq_true_iff.1 hwants
      obtain ⟨plan', hsettles, htight, hhooks⟩ := ih (first + 1) (hplan.add first r.hookCall)
      refine ⟨plan', ?_, htight, fun index => ?_⟩
      · rw [List.zipIdx_cons, planMethods, if_pos hbody]
        rw [hagrees] at hmatches
        exact hmatches.bind hsettles
      · rw [hhooks, WeavePlan.hooksOf_add, ite_wants_cons, List.append_assoc]
        simp only [hwants, and_true]
    · obtain ⟨plan', hsettles, htight, hhooks⟩ := ih (first + 1) hplan
      refine ⟨plan', ?_, htight, fun index => ?_⟩
      · rw [List.zipIdx_cons, planMethods]
        by_cases hbody : hasBody m = true
        · rw [Rule.wants, hbody, Bool.true_and, Bool.not_eq_true] at hwants
          rw [if_pos hbody]
          rw [hwants] at hmatches
          exact hmatches.bind hsettles
        · rw [if_neg hbody]
          exact hsettles
      · have hfirst : ¬ (index = first ∧ r.wants ops s m = true) := fun h => hwants h.2
        rw [hhooks, ite_wants_cons, if_neg hfirst, List.nil_append]

/-! ### All rules -/

/-- A rule in front that applies has its hook in front. -/
theorem hooksFor_cons (r : Rule) (rest : List Rule) (m : MethodDescription) :
    hooksFor ops s (r :: rest) l t m
      = (if r.applies ops s l t m then [r.hookCall] else []) ++ hooksFor ops s rest l t m := by
  unfold hooksFor
  by_cases happlies : r.applies ops s l t m = true
  · rw [List.filter_cons, if_pos happlies, if_pos happlies]
    rfl
  · rw [List.filter_cons, if_neg happlies, if_neg happlies]
    rfl

/-- The rules add their hooks to the plan, one rule after the other, by induction on the rules. -/
theorem exists_settles_planRules (hops : ops.Reliable fits)
    (hs : s.Coherent ops fits home size records) (ht : t.LivesAt home) (loader : Option LoaderId)
    (l : LoaderDescription) (rules : List Rule) {plan : WeavePlan} (hplan : plan.Tight) :
    ∃ plan' : WeavePlan,
      Settles (Session.Coherent ops fits home size records)
        (planRules ops t loader l plan rules) (.ok plan')
      ∧ plan'.Tight
      ∧ ∀ index, plan'.hooksOf index = plan.hooksOf index
          ++ ((t.methods[index]?).map (hooksFor ops s rules l t)).getD [] := by
  induction rules generalizing plan with
  | nil =>
    refine ⟨plan, settles_pure _, hplan, fun index => ?_⟩
    cases t.methods[index]? with
    | none => simp
    | some m => simp [hooksFor]
  | cons r rest ih =>
    have htype := r.settles_matchesType hops hs ht l
    cases hmatch : r.loaders.agrees ops s l && r.types.agrees ops s t with
    | false =>
      obtain ⟨plan', hsettles, htight, hhooks⟩ := ih hplan
      rw [hmatch] at htype
      refine ⟨plan', htype.bind hsettles, htight, fun index => ?_⟩
      rw [hhooks]
      cases t.methods[index]? with
      | none => rfl
      | some m => simp [hooksFor_cons, Rule.applies, hmatch]
    | true =>
      obtain ⟨planned, hmethods, hplanned, hadded⟩ :=
        settles_planMethods hops hs r t.methods 0 hplan
      obtain ⟨plan', hsettles, htight, hhooks⟩ := ih hplanned
      rw [hmatch] at htype
      refine ⟨plan', htype.bind ?_, htight, fun index => ?_⟩
      · exact ((settles_logLoaderHierarchy hops r loader).whenKept _).bind (hmethods.bind hsettles)
      · rw [hhooks, hadded]
        cases hm : t.methods[index]? with
        | none => simp
        | some m => simp [hooksFor_cons, Rule.applies, hmatch]

/-- **The rules plan** for each method the hooks of those that apply to it. -/
theorem settles_planRules (hops : ops.Reliable fits)
    (hs : s.Coherent ops fits home size records) (ht : t.LivesAt home) (loader : Option LoaderId)
    (l : LoaderDescription) (rules : List Rule) :
    Settles (Session.Coherent ops fits home size records)
      (planRules ops t loader l .empty rules) (.ok (planFor ops s rules l t)) := by
  obtain ⟨plan, hsettles, htight, hhooks⟩ :=
    exists_settles_planRules hops hs ht loader l rules WeavePlan.tight_empty
  have hplan : plan = planFor ops s rules l t := by
    refine WeavePlan.eq_of_hooksOf_eq htight (tight_planFor rules) fun index => ?_
    rw [hhooks, hooksOf_planFor]
    rfl
  exact hplan ▸ hsettles

end Pipeline

end AdviceWeaver

import AdviceWeaver.Pipeline.Basic
import AdviceWeaver.Proofs.Matching.Lookup
import AdviceWeaver.Proofs.Pipeline.Planning
import AdviceWeaver.Proofs.Sequencing
import AdviceWeaver.Proofs.Session.Triples
import AdviceWeaver.Proofs.Weaving.Plans

/-!
# What the rules of a pipeline hit

Planning is asking and adding: the rules are asked about a class and its methods, and the hook of a
rule is planned for each method on which all answers are yes. The questions alone are an action too
(`Pipeline.hits`). Its result tells what the rules answered in one run, whatever they answer in another
one, so that no matcher need answer the same thing twice.

## Main results

* `Pipeline.planRules_eq` — planning is asking the rules and adding the hooks of those that hit.
* `Pipeline.hooks_of_run_hitRules` — if the answers do not change, it is the rules that apply that hit.
* `Pipeline.mem_of_run_hits` — what can be hit.
* `Pipeline.exists_run_transform_iff` — a class is woven by the plan of what its rules hit.
-/

namespace AdviceWeaver

open Act

variable {ε α β : Type} {ops : LoaderOps ε} {s s' : Session ε} {p : Pipeline} {r : TransformRequest}

/-! ### Hits -/

/-- A rule, and the number of a method that it matches. -/
abbrev Hit := Rule × Nat

/-- The rules that hit a method, in order. -/
def Hit.rulesAt (hits : List Hit) (index : Nat) : List Rule :=
  (hits.filter fun hit => hit.2 = index).map Prod.fst

/-- The rules that hit a method are those of its hits. -/
theorem Hit.mem_rulesAt {hits : List Hit} {index : Nat} {rule : Rule} :
    rule ∈ rulesAt hits index ↔ (rule, index) ∈ hits := by
  simp [rulesAt]

/-- The plan with the hooks of some hits added. -/
def WeavePlan.addHits (plan : WeavePlan) (hits : List Hit) : WeavePlan :=
  hits.foldl (fun plan hit => plan.add hit.2 hit.1.hookCall) plan

/-- Hits in two parts are added one part after the other. -/
theorem WeavePlan.addHits_append (plan : WeavePlan) (hits more : List Hit) :
    plan.addHits (hits ++ more) = (plan.addHits hits).addHits more :=
  List.foldl_append

/-- **Each method receives** the hooks of the rules that hit it. -/
theorem WeavePlan.hooksOf_addHits (plan : WeavePlan) (hits : List Hit) (index : Nat) :
    (plan.addHits hits).hooksOf index
      = plan.hooksOf index ++ (Hit.rulesAt hits index).map Rule.hookCall := by
  induction hits generalizing plan with
  | nil => simp [addHits, Hit.rulesAt]
  | cons hit rest ih =>
    have hrest := ih (plan.add hit.2 hit.1.hookCall)
    rw [hooksOf_add] at hrest
    refine hrest.trans ?_
    by_cases hindex : hit.2 = index
    · simp [Hit.rulesAt, hindex]
    · simp [Hit.rulesAt, hindex, Ne.symm hindex]

/-! ### Asking the rules -/

namespace Pipeline

/-- The hits of a rule among the numbered methods of a class that it matches. -/
def hitMethods (ops : LoaderOps ε) (rule : Rule) : List (MethodDescription × Nat) → Act ε (List Hit)
  | [] => return []
  | (m, number) :: rest => do
    if hasBody m then
      if ← rule.matchesMethod ops m then
        return (rule, number) :: (← hitMethods ops rule rest)
    hitMethods ops rule rest

/-- The hits of the rules in a class. -/
def hitRules (ops : LoaderOps ε) (t : TypeDescription) (loader : Option LoaderId)
    (l : LoaderDescription) : List Rule → Act ε (List Hit)
  | [] => return []
  | rule :: rest => do
    if ← rule.matchesType ops t l then
      whenKept .trace (logLoaderHierarchy ops rule loader)
      let hits ← hitMethods ops rule t.methods.zipIdx
      return hits ++ (← hitRules ops t loader l rest)
    else hitRules ops t loader l rest

/-- The hits in a class that was described; none if the ignore rules hit it, which are asked here only if
the host gave no name. -/
def hitType (ops : LoaderOps ε) (p : Pipeline) (r : TransformRequest) (l : LoaderDescription)
    (d : TypeDescription) : Act ε (List Hit) := do
  let t := { d with pool := some (← newPool (.ofLoader r.loader)) }
  if r.className.isNone then
    if ← p.ignore.covers ops t l then return []
  hitRules ops t r.loader l p.rules

/-- The hits in the class of a request, found as a pipeline finds them before it weaves the class. There
are none in a class that is ignored, and none in a class that cannot be read or described. -/
def hits (ops : LoaderOps ε) (p : Pipeline) (r : TransformRequest) : Act ε (List Hit) := do
  let l ← r.loaderDescription ops
  if ← r.className.elim (return false) fun name => p.ignore.coversName ops (binaryName name) l then
    return []
  (TypeDescription.read r.bytes).toOption.elim (return []) (p.hitType ops r l)

/-! ### Planning -/

/-- A rule plans the hooks of its hits among some methods. -/
theorem planMethods_eq (rule : Rule) (plan : WeavePlan) (methods : List (MethodDescription × Nat)) :
    planMethods ops rule plan methods = plan.addHits <$> hitMethods ops rule methods := by
  induction methods generalizing plan with
  | nil =>
    rw [planMethods, hitMethods, map_pure]
    rfl
  | cons entry rest ih =>
    obtain ⟨m, number⟩ := entry
    rw [planMethods, hitMethods]
    by_cases hbody : hasBody m = true
    · rw [if_pos hbody, if_pos hbody, map_bind]
      refine bind_congr fun hit => ?_
      cases hit with
      | false => exact ih plan
      | true =>
        rw [if_pos rfl, if_pos rfl, ih, map_bind, map_eq_pure_bind]
        refine bind_congr fun hits => ?_
        rw [map_pure]
        rfl
    · rw [if_neg hbody, if_neg hbody]
      exact ih plan

/-- **Planning** is asking the rules and adding the hooks of those that hit. -/
theorem planRules_eq (t : TypeDescription) (loader : Option LoaderId) (l : LoaderDescription)
    (plan : WeavePlan) (rules : List Rule) :
    planRules ops t loader l plan rules = plan.addHits <$> hitRules ops t loader l rules := by
  induction rules generalizing plan with
  | nil =>
    rw [planRules, hitRules, map_pure]
    rfl
  | cons rule rest ih =>
    rw [planRules, hitRules, map_bind]
    refine bind_congr fun hit => ?_
    cases hit with
    | false => exact ih plan
    | true =>
      rw [if_pos rfl, if_pos rfl, map_bind]
      refine bind_congr fun _ => ?_
      rw [planMethods_eq, map_bind, bind_map_left]
      refine bind_congr fun hits => ?_
      rw [ih, map_bind, map_eq_pure_bind]
      refine bind_congr fun more => ?_
      rw [map_pure, WeavePlan.addHits_append]

/-- **Where each question has one answer**, the rules that hit a method are those that apply to it. -/
theorem hooks_of_run_hitRules {fits : ε → Prop} {home : Option Home} {size : Nat}
    {records : Array (List String)} (hops : ops.Reliable fits)
    (hs : s.Coherent ops fits home size records) {t : TypeDescription} (ht : t.LivesAt home)
    {loader : Option LoaderId} {l : LoaderDescription} {rules : List Rule} {hits : List Hit}
    (hrun : (hitRules ops t loader l rules).run s = (.ok hits, s')) {index : Nat}
    {m : MethodDescription} (hm : t.methods[index]? = some m) :
    (Hit.rulesAt hits index).map Rule.hookCall = hooksFor ops s rules l t m := by
  obtain ⟨s₁, hplan, -⟩ := settles_planRules hops hs ht loader l rules s hs
  rw [planRules_eq, map_eq_pure_bind, run_bind_ok hrun] at hplan
  have hplanned : WeavePlan.empty.addHits hits = planFor ops s rules l t :=
    Except.ok.inj (Prod.mk.inj hplan).1
  have hhooks := WeavePlan.hooksOf_addHits .empty hits index
  rw [hplanned, hooksOf_planFor, hm] at hhooks
  exact hhooks.symm

/-! ### What can be hit -/

/-- A rule hits none but the methods it was asked about, and those have a body. -/
theorem mem_of_run_hitMethods {rule : Rule} {methods : List (MethodDescription × Nat)}
    {hits : List Hit} (hrun : (hitMethods ops rule methods).run s = (.ok hits, s')) :
    ∀ hit ∈ hits, hit.1 = rule ∧ ∃ m, (m, hit.2) ∈ methods ∧ hasBody m = true := by
  induction methods generalizing s hits with
  | nil =>
    cases hrun
    exact nofun
  | cons entry rest ih =>
    obtain ⟨m, number⟩ := entry
    have hrest {s : Session ε} {hits : List Hit}
        (hrun : (hitMethods ops rule rest).run s = (.ok hits, s')) :
        ∀ hit ∈ hits, hit.1 = rule ∧ ∃ m', (m', hit.2) ∈ (m, number) :: rest ∧ hasBody m' = true := by
      intro hit hhit
      obtain ⟨hrule, m', hm', hbody⟩ := ih hrun hit hhit
      exact ⟨hrule, m', List.mem_cons_of_mem _ hm', hbody⟩
    rw [hitMethods] at hrun
    by_cases hbody : hasBody m = true
    · rw [if_pos hbody] at hrun
      obtain ⟨_ | _, s₁, -, hrun⟩ := exists_of_run_bind hrun
      · exact hrest hrun
      · obtain ⟨more, s₂, hmore, hrun⟩ := exists_of_run_bind hrun
        cases hrun
        exact List.forall_mem_cons.2 ⟨⟨rfl, m, List.mem_cons_self, hbody⟩, hrest hmore⟩
    · rw [if_neg hbody] at hrun
      exact hrest hrun

/-- Rules hit none but the methods of the class that have a body. -/
theorem mem_of_run_hitRules {t : TypeDescription} {loader : Option LoaderId} {l : LoaderDescription}
    {rules : List Rule} {hits : List Hit}
    (hrun : (hitRules ops t loader l rules).run s = (.ok hits, s')) :
    ∀ hit ∈ hits, hit.1 ∈ rules ∧ ∃ m, t.methods[hit.2]? = some m ∧ hasBody m = true := by
  induction rules generalizing s hits with
  | nil =>
    cases hrun
    exact nofun
  | cons rule rest ih =>
    have hrest {s : Session ε} {hits : List Hit}
        (hrun : (hitRules ops t loader l rest).run s = (.ok hits, s')) :
        ∀ hit ∈ hits, hit.1 ∈ rule :: rest
          ∧ ∃ m, t.methods[hit.2]? = some m ∧ hasBody m = true := by
      intro hit hhit
      obtain ⟨hrule, hm⟩ := ih hrun hit hhit
      exact ⟨List.mem_cons_of_mem _ hrule, hm⟩
    rw [hitRules] at hrun
    obtain ⟨_ | _, s₁, -, hrun⟩ := exists_of_run_bind hrun
    · exact hrest hrun
    · obtain ⟨_, s₂, -, hrun⟩ := exists_of_run_bind hrun
      obtain ⟨first, s₃, hfirst, hrun⟩ := exists_of_run_bind hrun
      obtain ⟨more, s₄, hmore, hrun⟩ := exists_of_run_bind hrun
      cases hrun
      refine List.forall_mem_append.2 ⟨fun hit hhit => ?_, hrest hmore⟩
      obtain ⟨hrule, m, hm, hbody⟩ := mem_of_run_hitMethods hfirst hit hhit
      exact ⟨hrule ▸ List.mem_cons_self, m, List.mk_mem_zipIdx_iff_getElem?.1 hm, hbody⟩

/-- A hit that is found is of a rule of the pipeline and of a method with a body. -/
theorem mem_of_run_hitType {l : LoaderDescription} {d : TypeDescription} {hits : List Hit}
    (hrun : (p.hitType ops r l d).run s = (.ok hits, s')) :
    ∀ hit ∈ hits, hit.1 ∈ p.rules ∧ ∃ m, d.methods[hit.2]? = some m ∧ hasBody m = true := by
  have hrules {pool : Option PoolId} {s : Session ε}
      (hrun : (hitRules ops { d with pool } r.loader l p.rules).run s = (.ok hits, s')) :
      ∀ hit ∈ hits, hit.1 ∈ p.rules ∧ ∃ m, d.methods[hit.2]? = some m ∧ hasBody m = true :=
    fun hit hhit => mem_of_run_hitRules hrun hit hhit
  obtain ⟨id, s₁, -, hrun⟩ := exists_of_run_bind hrun
  by_cases hname : r.className.isNone = true
  · rw [if_pos hname] at hrun
    obtain ⟨_ | _, s₂, -, hrun⟩ := exists_of_run_bind hrun
    · exact hrules hrun
    · cases hrun
      exact nofun
  · rw [if_neg hname] at hrun
    exact hrules hrun

/-- **The rules of a pipeline** hit none but the methods of the class that have a body. -/
theorem mem_of_run_hits {d : TypeDescription} {hits : List Hit}
    (hd : TypeDescription.read r.bytes = .ok d) (hrun : (p.hits ops r).run s = (.ok hits, s')) :
    ∀ hit ∈ hits, hit.1 ∈ p.rules ∧ ∃ m, d.methods[hit.2]? = some m ∧ hasBody m = true := by
  obtain ⟨l, s₁, -, hrun⟩ := exists_of_run_bind hrun
  obtain ⟨_ | _, s₂, -, hrun⟩ := exists_of_run_bind hrun
  · rw [hd] at hrun
    exact mem_of_run_hitType hrun
  · cases hrun
    exact nofun

/-! ### Transforming -/

/-- The class of a request is woven into `out` by the plan of some hits. -/
def WovenBy (r : TransformRequest) (out : Bytes) (hits : List Hit) : Prop :=
  ∃ c d, ClassFile.read r.bytes = .ok c ∧ TypeDescription.ofClassFile c = .ok d
    ∧ weave r.bytes c (WeavePlan.empty.addHits hits) = .ok (some out)

/-- No class is woven by the plan of no hits. -/
theorem not_exists_wovenBy_pure_nil {out : Bytes} :
    ¬ ∃ hits s', (pure [] : Act ε (List Hit)).run s = (.ok hits, s') ∧ WovenBy r out hits := by
  rintro ⟨hits, s', hrun, c, d, -, -, hwoven⟩
  cases hrun
  cases hwoven

/-- In every session, the action `a` answers a woven class exactly if `b` finds hits by which the class is
woven. -/
def Mirrors (r : TransformRequest) (out : Bytes) (a : Act ε (Option Bytes)) (b : Act ε (List Hit)) :
    Prop :=
  ∀ s, (∃ s', a.run s = (.ok (some out), s'))
    ↔ ∃ hits s', b.run s = (.ok hits, s') ∧ WovenBy r out hits

section Mirrors

variable {out : Bytes}

/-- An action that answers nothing mirrors one that finds no hits. -/
theorem mirrors_none : Mirrors r out (pure none : Act ε (Option Bytes)) (pure []) := by
  refine fun s => iff_of_false ?_ not_exists_wovenBy_pure_nil
  rintro ⟨s', hrun⟩
  cases hrun

/-- What is asked first may decide how both go on. -/
theorem Mirrors.bind {a : Act ε α} {f : α → Act ε (Option Bytes)} {g : α → Act ε (List Hit)}
    (h : ∀ x, Mirrors r out (f x) (g x)) : Mirrors r out (a >>= f) (a >>= g) := by
  intro s
  rcases hrun : a.run s with ⟨e | x, s₁⟩
  · rw [run_bind_error hrun, run_bind_error hrun]
    constructor
    · rintro ⟨_, hfail⟩
      cases hfail
    · rintro ⟨_, _, hfail, -⟩
      cases hfail
  · rw [run_bind_ok hrun, run_bind_ok hrun]
    exact h x s₁

/-- Traces do not count. -/
theorem Mirrors.log {a : Act ε (Option Bytes)} (level : Level) (message : String)
    (fields : List (String × String)) (h : Mirrors r out a (pure [])) :
    Mirrors r out (Act.log level message fields >>= fun _ => a) (pure []) := by
  exact fun s => (h _).trans (iff_of_false not_exists_wovenBy_pure_nil not_exists_wovenBy_pure_nil)

/-- A class is woven into what weaving the plan gives. -/
theorem exists_run_weaveInto_iff {bytes : Bytes} {c : ClassFile} {t : TypeDescription}
    {plan : WeavePlan} :
    (∃ s', (p.weaveInto bytes c t plan : Act ε _).run s = (.ok (some out), s'))
      ↔ weave bytes c plan = .ok (some out) := by
  rw [weaveInto]
  by_cases hempty : plan.isEmpty = true
  · rw [if_pos hempty]
    constructor
    · rintro ⟨s', hrun⟩
      cases hrun
    · intro hwoven
      unfold weave at hwoven
      rw [List.isEmpty_iff.1 hempty] at hwoven
      cases hwoven
  · rw [if_neg hempty]
    split
    · next hwoven =>
      rw [hwoven]
      constructor
      · rintro ⟨s', hrun⟩
        cases hrun
      · nofun
    · next woven hwoven =>
      rw [hwoven]
      constructor
      · rintro ⟨s', hrun⟩
        cases hrun
        rfl
      · intro heq
        cases heq
        exact ⟨_, rfl⟩
    · next e hwoven =>
      rw [hwoven]
      constructor
      · rintro ⟨s', hrun⟩
        cases hrun
      · nofun

section Described

variable {c : ClassFile} {d : TypeDescription} (hread : ClassFile.read r.bytes = .ok c)
  (hd : TypeDescription.ofClassFile c = .ok d)
include hread hd

/-- A class that was described is woven by the hits that are added to its plan. -/
theorem wovenBy_iff {hits : List Hit} : WovenBy r out hits
    ↔ weave r.bytes c (WeavePlan.empty.addHits hits) = .ok (some out) := by
  constructor
  · rintro ⟨c', d', hread', -, hwoven⟩
    obtain rfl := Except.ok.inj (hread.symm.trans hread')
    exact hwoven
  · exact fun hwoven => ⟨c, d, hread, hd, hwoven⟩

/-- The plan of the rules mirrors the hits that they find. -/
theorem mirrors_planRules (t : TypeDescription) (l : LoaderDescription) :
    Mirrors r out (planRules ops t r.loader l .empty p.rules >>= p.weaveInto r.bytes c t)
      (hitRules ops t r.loader l p.rules) := by
  suffices h : Mirrors r out (planRules ops t r.loader l .empty p.rules >>= p.weaveInto r.bytes c t)
      (hitRules ops t r.loader l p.rules >>= pure) by
    rwa [bind_pure] at h
  rw [planRules_eq, bind_map_left]
  refine .bind fun hits s => exists_run_weaveInto_iff.trans ?_
  rw [← wovenBy_iff hread hd]
  constructor
  · exact fun hwoven => ⟨hits, s, rfl, hwoven⟩
  · rintro ⟨_, _, hrun, hwoven⟩
    cases hrun
    exact hwoven

/-- Transforming a class that was described mirrors the hits that are found in it. -/
theorem mirrors_transformType (l : LoaderDescription) :
    Mirrors r out (p.transformType ops r l c d) (p.hitType ops r l d) := by
  refine .bind fun id => ?_
  dsimp only
  by_cases hname : r.className.isNone = true
  · rw [if_pos hname, if_pos hname]
    refine .bind fun hit => ?_
    cases hit with
    | false => exact mirrors_planRules hread hd _ l
    | true => exact mirrors_none
  · rw [if_neg hname, if_neg hname]
    exact mirrors_planRules hread hd _ l

end Described

/-- Transforming the bytes of a request mirrors the hits that are found in what they describe. -/
theorem mirrors_transformBytes (l : LoaderDescription) :
    Mirrors r out (p.transformBytes ops r l)
      ((TypeDescription.read r.bytes).toOption.elim (pure []) (p.hitType ops r l)) := by
  rw [transformBytes]
  cases hread : ClassFile.read r.bytes with
  | error e =>
    have hnone : TypeDescription.read r.bytes = .error e := by
      rw [TypeDescription.read, hread]
      rfl
    rw [hnone]
    exact .log _ _ _ mirrors_none
  | ok c =>
    have hsame : TypeDescription.read r.bytes = TypeDescription.ofClassFile c := by
      rw [TypeDescription.read, hread]
      rfl
    rw [hsame]
    dsimp only
    cases hd : TypeDescription.ofClassFile c with
    | error e => exact .log _ _ _ mirrors_none
    | ok d => exact mirrors_transformType hread hd l

/-- **A class is woven** exactly if the rules hit it so that it is woven by the plan of what they hit. -/
theorem exists_run_transform_iff :
    (∃ s', (p.transform ops r).run s = (.ok (some out), s'))
      ↔ ∃ hits s', (p.hits ops r).run s = (.ok hits, s') ∧ WovenBy r out hits := by
  suffices h : Mirrors r out (p.transform ops r) (p.hits ops r) from h s
  refine .bind fun l => ?_
  cases r.className with
  | none => exact mirrors_transformBytes l
  | some name =>
    refine .bind fun hit => ?_
    cases hit with
    | false => exact mirrors_transformBytes l
    | true => exact mirrors_none

end Mirrors

end Pipeline

end AdviceWeaver

import AdviceWeaver.Proofs.Agent.Calls
import AdviceWeaver.Proofs.Pipeline.Building
import AdviceWeaver.Proofs.Pipeline.Ignored
import AdviceWeaver.Proofs.Pipeline.Transform
import AdviceWeaver.Proofs.Text.Search

/-!
# Hook classes are left alone

A hook that is woven into a hook would call itself forever, so a builder adds the hook class of each rule
to its ignore rules. The name of the class stays there from then on, since more rules only widen what is
ignored (`Matcher.NeverDenies`) — until the ignore rules are replaced as a whole, which forgets the hook
classes of the rules that are there already.

## Main results

* `PipelineBuilder.shelters_foldl` — calls that do not replace the ignore rules shelter hook classes.
* `PipelineBuilder.hooks_spared` — a pipeline never weaves the hook classes of the rules that were added
  since its ignore rules were replaced.
* `PipelineBuilder.hooks_woven` — it does weave those of older rules.
-/

namespace AdviceWeaver

open Act

variable {ε : Type} {ops : LoaderOps ε} {fits : ε → Prop} {s s' : Session ε} {p : Pipeline}
  {rules : IgnoreRules} {name : String} {b : PipelineBuilder}

/-! ### Names that are never denied -/

/-- Asked about a type of this name, the matcher may fail, but never says no. -/
def Matcher.NeverDenies (m : Matcher .type) (name : String) : Prop :=
  ∀ (ε : Type) (ops : LoaderOps ε) (s : Session ε) (t : TypeDescription), t.name = name →
    ((m.eval ops t).run s).1 ≠ .ok (.ok false)

namespace Matcher

variable {m n : Matcher .type}

/-- The second one of two matchers is asked only if the first one says no. -/
theorem run_or (m n : Matcher .type) (t : TypeDescription) (s : Session ε) :
    ((Matcher.or m n).eval ops t).run s = match (m.eval ops t).run s with
      | (.ok (.ok false), s') => (n.eval ops t).run s'
      | decided => decided := by
  rcases hrun : (m.eval ops t).run s with ⟨p | e | _ | _, s'⟩
  · exact run_bind_error hrun
  · exact run_bind_ok hrun
  · exact run_bind_ok hrun
  · exact run_bind_ok hrun

/-- One more matcher denies nothing that was not denied. -/
theorem NeverDenies.or (h : m.NeverDenies name) : (Matcher.or m n).NeverDenies name := by
  intro ε ops s t ht
  rw [run_or]
  split
  next s' hrun => exact absurd (congrArg Prod.fst hrun) (h ε ops s t ht)
  next => exact h ε ops s t ht

/-- A matcher with a name added never denies that name. -/
theorem neverDenies_or_name : (Matcher.or m (.name .equals name)).NeverDenies name := by
  intro ε ops s t ht
  rw [run_or]
  split
  next s' _ =>
    have htest : NameTest.equals.holds t.name name = true := by simp [NameTest.holds, ht]
    have hrun : (eval (k := .type) ops (.name .equals name) t).run s'
        = (.ok (.ok (NameTest.equals.holds t.name name)), s') := rfl
    rw [hrun, htest]
    nofun
  next hne => exact fun heq => hne _ (Prod.ext heq rfl)

end Matcher

namespace IgnoreRules

/-- The rules shelter a class if they never leave a type of its name to the other rules. -/
def Shelters (rules : IgnoreRules) (name : String) : Prop :=
  rules.types.NeverDenies name

/-- A name that is sheltered stays so when more types are ignored. -/
theorem Shelters.ignoreType (h : rules.Shelters name) (m : Matcher .type) :
    (rules.ignoreType m).Shelters name :=
  Matcher.NeverDenies.or h

/-- A hook class that is ignored is sheltered. -/
theorem shelters_ignoreHookClass (rules : IgnoreRules) (name : String) :
    (rules.ignoreHookClass name).Shelters name :=
  Matcher.neverDenies_or_name

/-- **A sheltered class** is ignored unless a matcher panics, whatever its loader is. -/
theorem Shelters.covers_ne (h : rules.Shelters name) (s : Session ε) {t : TypeDescription}
    (ht : t.name = name) (l : LoaderDescription) : ((rules.covers ops t l).run s).1 ≠ .ok false := by
  rcases hrun : (rules.covers ops t l).run s with ⟨v, s'⟩
  rintro rfl
  obtain ⟨answer, s₁, -, hrun⟩ := exists_of_run_bind hrun
  rcases answer with e | _ | _
  · cases hrun
  · -- No rule for loaders hits, so those for types are asked.
    simp only [pure_bind, Bool.false_eq_true, if_false] at hrun
    obtain ⟨answer, s₂, htypes, hrun⟩ := exists_of_run_bind hrun
    rcases answer with e | _ | _
    · cases hrun
    · exact h ε ops s₁ t ht (congrArg Prod.fst htypes)
    · cases hrun
  · cases hrun

/-- A hook class more makes no rules panic. -/
theorem NeverPanic.ignoreHookClass (h : rules.NeverPanic ops fits) (name : String) :
    (rules.ignoreHookClass name).NeverPanic ops fits := by
  refine ⟨h.loaders, fun {s} t hs => ?_⟩
  obtain ⟨answer, hanswer⟩ := h.types t hs
  show ∃ answer, (((Matcher.or rules.types (.name .equals name)).eval ops t).run s).1 = .ok answer
  rw [Matcher.run_or]
  split
  next s' _ => exact ⟨_, rfl⟩
  next => exact ⟨answer, hanswer⟩

end IgnoreRules

/-! ### Calls to a builder -/

/-- A call to a builder. -/
inductive BuilderCall where
  /-- A module is applied. -/
  | apply (m : Module) (tracer : Tracer)
  /-- The ignore rules are replaced. -/
  | withIgnoreRules (rules : IgnoreRules)

/-- The rule that a call adds, if any. -/
def BuilderCall.rule? : BuilderCall → Option Rule
  | .apply m tracer => (m.rule tracer).toOption
  | .withIgnoreRules _ => none

namespace PipelineBuilder

/-- Makes a call. -/
def call (b : PipelineBuilder) : BuilderCall → Act ε PipelineBuilder
  | .apply m tracer => b.apply m tracer
  | .withIgnoreRules rules => return b.withIgnoreRules rules

/-- Makes calls one after the other. -/
def callAll (b : PipelineBuilder) (calls : List BuilderCall) : Act ε PipelineBuilder :=
  calls.foldlM call b

/-- The builder after a call. -/
def after (b : PipelineBuilder) : BuilderCall → PipelineBuilder
  | .apply m tracer => b.joined m tracer
  | .withIgnoreRules rules => b.withIgnoreRules rules

/-- Every call of a builder is answered, and only the journal tells of it besides. -/
theorem exists_run_call (b : PipelineBuilder) (c : BuilderCall) (s : Session ε) :
    ∃ journal, (b.call c).run s = (.ok (b.after c), { s with journal }) := by
  cases c with
  | withIgnoreRules rules => exact ⟨s.journal, rfl⟩
  | apply m tracer =>
    unfold call after apply joined
    dsimp only
    rw [run_bind_ok (run_log _ _ _), run_bind_ok run_prepare]
    cases m.rule tracer with
    | error e => exact ⟨_, rfl⟩
    | ok r => exact ⟨_, rfl⟩

/-- Calls touch nothing but the builder and the journal. -/
theorem exists_run_callAll (b : PipelineBuilder) (calls : List BuilderCall) (s : Session ε) :
    ∃ journal, (b.callAll calls).run s = (.ok (calls.foldl after b), { s with journal }) := by
  induction calls generalizing b s with
  | nil => exact ⟨s.journal, rfl⟩
  | cons c rest ih =>
    obtain ⟨journal, hrun⟩ := exists_run_call b c s
    obtain ⟨journal', hrun'⟩ := ih (b.after c) { s with journal }
    refine ⟨journal', ?_⟩
    unfold callAll at hrun' ⊢
    rw [List.foldlM_cons, run_bind_ok hrun]
    exact hrun'

/-- Each call adds its rule behind the others. -/
theorem rules_after (b : PipelineBuilder) (c : BuilderCall) :
    (b.after c).rules = b.rules ++ c.rule?.toList := by
  cases c with
  | withIgnoreRules rules => exact (List.append_nil _).symm
  | apply m tracer =>
    unfold after joined BuilderCall.rule?
    dsimp only
    cases m.rule tracer with
    | error e => exact (List.append_nil _).symm
    | ok r => rfl

/-- The rules after some calls are those before and then the ones that the calls add. -/
theorem rules_foldl (b : PipelineBuilder) (calls : List BuilderCall) :
    (calls.foldl after b).rules = b.rules ++ calls.filterMap BuilderCall.rule? := by
  induction calls generalizing b with
  | nil => exact (List.append_nil _).symm
  | cons c rest ih =>
    rw [List.foldl_cons, ih, rules_after, List.append_assoc, List.filterMap_cons]
    cases c.rule? with
    | none => rfl
    | some r => rfl

/-! ### Hook classes of a builder -/

/-- A call that does not replace the ignore rules forgets no hook class. -/
theorem shelters_after (h : b.ignore.Shelters name) {c : BuilderCall}
    (hc : ∀ rules, c ≠ .withIgnoreRules rules) : (b.after c).ignore.Shelters name := by
  cases c with
  | withIgnoreRules rules => exact absurd rfl (hc rules)
  | apply m tracer =>
    unfold after joined
    dsimp only
    split
    · exact h.ignoreType _
    · exact h

/-- A call that adds a rule shelters its hook class. -/
theorem shelters_after_of_rule? {c : BuilderCall} {r : Rule} (hr : c.rule? = some r) :
    (b.after c).ignore.Shelters r.hook.className := by
  cases c with
  | withIgnoreRules rules => cases hr
  | apply m tracer =>
    unfold BuilderCall.rule? at hr
    unfold after joined
    dsimp only at hr ⊢
    cases hrule : m.rule tracer with
    | error e =>
      rw [hrule] at hr
      cases hr
    | ok r' =>
      rw [hrule] at hr
      cases hr
      exact IgnoreRules.shelters_ignoreHookClass _ _

/-- **Calls that do not replace the ignore rules** shelter the hook classes of the rules that they add,
and those that were sheltered before. -/
theorem shelters_foldl {calls : List BuilderCall} (hcalls : ∀ rules, .withIgnoreRules rules ∉ calls)
    (h : b.ignore.Shelters name
      ∨ ∃ r ∈ calls.filterMap BuilderCall.rule?, r.hook.className = name) :
    (calls.foldl after b).ignore.Shelters name := by
  induction calls generalizing b with
  | nil =>
    rcases h with h | ⟨r, hr, -⟩
    · exact h
    · cases hr
  | cons c rest ih =>
    have hc (rules : IgnoreRules) : c ≠ .withIgnoreRules rules := fun heq =>
      hcalls rules (heq ▸ List.mem_cons_self)
    -- What the first call adds is sheltered already when the others are made.
    refine ih (fun rules hmem => hcalls rules (List.mem_cons_of_mem c hmem)) ?_
    rcases h with h | ⟨r, hr, hname⟩
    · exact .inl (shelters_after h hc)
    · obtain ⟨c', hc', hrule⟩ := List.mem_filterMap.1 hr
      rcases List.mem_cons.1 hc' with rfl | hc'
      · exact .inl (hname ▸ shelters_after_of_rule? hrule)
      · exact .inr ⟨r, List.mem_filterMap.2 ⟨c', hc', hrule⟩, hname⟩

/-- A builder's ignore rules do not panic if none that it was given do. -/
theorem neverPanic_foldl {calls : List BuilderCall} (hb : b.ignore.NeverPanic ops fits)
    (hcalls : ∀ rules, .withIgnoreRules rules ∈ calls → rules.NeverPanic ops fits) :
    (calls.foldl after b).ignore.NeverPanic ops fits := by
  induction calls generalizing b with
  | nil => exact hb
  | cons c rest ih =>
    refine ih ?_ fun rules hmem => hcalls rules (List.mem_cons_of_mem c hmem)
    cases c with
    | withIgnoreRules rules => exact hcalls rules List.mem_cons_self
    | apply m tracer =>
      unfold after joined
      dsimp only
      split
      · exact hb.ignoreHookClass _
      · exact hb

end PipelineBuilder

/-! ### What a pipeline does to a sheltered class -/

/-- The request is for a class of this name: the host gives an internal name for it, or else the class
file has the name, if it can be read. -/
def TransformRequest.AsksFor (r : TransformRequest) (name : String) : Prop :=
  match r.className with
  | some className => binaryName className = name
  | none => ∀ t, TypeDescription.read r.bytes = .ok t → t.name = name

/-- Binary names have no slashes, so nobody asks by name for a class that is spelled with one. -/
theorem TransformRequest.not_asksFor_of_slash {r : TransformRequest} (hname : '/' ∈ name.toList)
    (hr : r.className ≠ none) : ¬ r.AsksFor name := by
  unfold AsksFor
  cases hclass : r.className with
  | none => exact absurd hclass hr
  | some className =>
    rintro rfl
    exact Text.not_mem_replaceChar (by decide) className hname

/-- The pipeline leaves a class alone, whatever it is asked and wherever. -/
structure Pipeline.Spares (p : Pipeline) (name : String) : Prop where
  /-- The ignore rules hit the class, unless a matcher panics. -/
  ignored {ε : Type} (ops : LoaderOps ε) (s : Session ε) (l : LoaderDescription) :
    ((p.ignore.coversName ops name l).run s).1 ≠ .ok false
  /-- The class is not woven. -/
  unwoven {ε : Type} {ops : LoaderOps ε} {s s' : Session ε} {r : TransformRequest} {out : Bytes} :
    r.AsksFor name → (p.transform ops r).run s ≠ (.ok (some out), s')

namespace Pipeline

/-- A class that may be asked about its description only is not woven. -/
theorem run_transformBytes_ne {r : TransformRequest} {l : LoaderDescription} {out : Bytes}
    (h : p.ignore.Shelters name) (hnone : r.className = none)
    (hname : ∀ t, TypeDescription.read r.bytes = .ok t → t.name = name) :
    (p.transformBytes ops r l).run s ≠ (.ok (some out), s') := by
  intro hrun
  unfold transformBytes at hrun
  cases hread : ClassFile.read r.bytes with
  | error e =>
    rw [hread] at hrun
    cases hrun
  | ok c =>
    rw [hread] at hrun
    dsimp only at hrun
    cases hd : TypeDescription.ofClassFile c with
    | error e =>
      rw [hd] at hrun
      cases hrun
    | ok t =>
      rw [hd] at hrun
      have ht : t.name = name := hname t (except_bind_eq_ok.2 ⟨c, hread, hd⟩)
      unfold transformType at hrun
      obtain ⟨id, s₁, -, hrun⟩ := exists_of_run_bind hrun
      simp only [hnone, Option.isNone_none, if_true] at hrun
      obtain ⟨hit, s₂, hcovers, hrun⟩ := exists_of_run_bind hrun
      cases hit with
      | false =>
        exact h.covers_ne s₁ (t := { t with pool := some id }) ht l (congrArg Prod.fst hcovers)
      | true =>
        rw [if_pos rfl] at hrun
        cases hrun

/-- **A pipeline spares** what its ignore rules shelter. -/
theorem spares_of_shelters (h : p.ignore.Shelters name) : p.Spares name where
  ignored ops s l := h.covers_ne s rfl l
  unwoven {ε ops s s' r out} hasks hrun := by
    unfold TransformRequest.AsksFor at hasks
    obtain ⟨l, s₁, -, hrun⟩ := exists_of_run_bind hrun
    cases hclass : r.className with
    | none =>
      rw [hclass] at hrun hasks
      exact run_transformBytes_ne h hclass hasks hrun
    | some className =>
      rw [hclass] at hrun hasks
      obtain ⟨hit, s₂, hcovers, hrun⟩ := exists_of_run_bind hrun
      cases hit with
      | false => exact h.covers_ne s₁ hasks l (congrArg Prod.fst hcovers)
      | true =>
        rw [if_pos rfl] at hrun
        cases hrun

/-- If no matcher panics, the ignore rules hit a class that they shelter. -/
theorem Spares.hits (h : p.Spares name) (hops : ops.Reliable fits)
    (hignore : p.ignore.NeverPanic ops fits) (hs : fits s.world) (l : LoaderDescription) :
    p.ignore.Hits ops name l := by
  obtain ⟨s', hrun, -⟩ := IgnoreRules.settles_covers hops hignore (Session.Coherent.of_world hs)
    (t := .ofName name) (.inl rfl) l s (.of_world hs)
  have hne := h.ignored ops s l
  refine IgnoreRules.hits_of_run (s := s) ?_
  unfold IgnoreRules.coversName at hne ⊢
  rw [hrun] at hne ⊢
  cases hignores : p.ignore.ignores ops s (.ofName name) l with
  | false => exact absurd (congrArg Except.ok hignores) hne
  | true => rfl

/-- If nothing panics, nothing comes out for such a class. -/
theorem Spares.run_transform_eq (h : p.Spares name) (hops : ops.Reliable fits)
    (hignore : p.ignore.NeverPanic ops fits) (hs : fits s.world) {r : TransformRequest}
    (hr : r.AsksFor name) :
    ∃ s', (p.transform ops r).run s = (.ok none, s') ∧ s'.records = s.records := by
  obtain ⟨l, -, out?, s', hrun, -, hends⟩ := exists_run_transform hops hs hignore r
  rcases hends with ⟨_, _, _, out, -, rfl, -⟩ | ⟨-, rfl, hrecords⟩
  · exact absurd hrun (h.unwoven hr)
  · exact ⟨s', hrun, hrecords⟩

end Pipeline

/-! ### Pipelines out of a builder -/

namespace PipelineBuilder

/-- Makes calls to a new builder and has it build its pipeline. -/
def buildAfter (calls : List BuilderCall) : Act ε Pipeline := do
  (← new.callAll calls).build

/-- A builder that was called is built to a pipeline with its rules and ignore rules. -/
theorem exists_run_buildAfter (calls : List BuilderCall) (s : Session ε) :
    ∃ p s', (buildAfter calls).run s = (.ok p, s') ∧ p.ignore = (calls.foldl after new).ignore
      ∧ p.rules = (calls.foldl after new).rules := by
  obtain ⟨journal, hcalls⟩ := exists_run_callAll new calls s
  exact ⟨_, _, run_bind_ok hcalls, rfl, rfl⟩

/-- **No hook is woven into a hook.** Whatever calls a builder got, its pipeline has the rules of the
modules that were applied, and leaves the hook classes alone of those that were applied since the ignore
rules were replaced last: it never weaves them, and if nothing panics, its ignore rules hit them under
every loader and nothing comes out for them. -/
theorem hooks_spared {earlier later : List BuilderCall}
    (hlater : ∀ rules, .withIgnoreRules rules ∉ later) (s : Session ε) :
    ∃ p s', (buildAfter (earlier ++ later)).run s = (.ok p, s')
      ∧ p.rules = (earlier ++ later).filterMap BuilderCall.rule?
      ∧ ∀ r ∈ later.filterMap BuilderCall.rule?, p.Spares r.hook.className
        ∧ ∀ (ops : LoaderOps ε) (fits : ε → Prop), ops.Reliable fits →
          (∀ rules, .withIgnoreRules rules ∈ earlier → rules.NeverPanic ops fits) →
          ∀ s, fits s.world → (∀ l, p.ignore.Hits ops r.hook.className l)
            ∧ ∀ q : TransformRequest, q.AsksFor r.hook.className →
              ∃ s', (p.transform ops q).run s = (.ok none, s') ∧ s'.records = s.records := by
  obtain ⟨p, s', hrun, hignore, hrules⟩ := exists_run_buildAfter (earlier ++ later) s
  rw [List.foldl_append] at hignore
  refine ⟨p, s', hrun, hrules.trans (rules_foldl _ _), fun r hr => ?_⟩
  have hspares : p.Spares r.hook.className := by
    refine Pipeline.spares_of_shelters ?_
    rw [hignore]
    exact shelters_foldl hlater (.inr ⟨r, hr, rfl⟩)
  refine ⟨hspares, fun ops fits hops hgiven s hs => ?_⟩
  have hquiet : p.ignore.NeverPanic ops fits := by
    rw [hignore]
    exact neverPanic_foldl (neverPanic_foldl IgnoreRules.calm_default.neverPanic hgiven)
      fun rules hmem => absurd hmem (hlater rules)
  exact ⟨hspares.hits hops hquiet hs, fun q hq => hspares.run_transform_eq hops hquiet hs hq⟩

/-! ### Samples -/

/-- The file of a hook class that wants to be called before the body of a method. Its hook method has a
body. -/
def hookFile (name : List UInt8) : Bytes :=
  [0xCA, 0xFE, 0xBA, 0xBE, 0, 0, 0, 0x34, 0, 6]
    ++ ([1, 0, UInt8.ofNat name.length] ++ name) ++ [7, 0, 1, 1, 0, 13]
    ++ [0x6F, 0x6E, 0x4D, 0x65, 0x74, 0x68, 0x6F, 0x64, 0x45, 0x6E, 0x74, 0x65, 0x72]
    ++ [1, 0, 3, 0x28, 0x29, 0x56, 1, 0, 4, 0x43, 0x6F, 0x64, 0x65]
    ++ [0, 0x21, 0, 2, 0, 0, 0, 0, 0, 0, 0, 1, 0, 9, 0, 3, 0, 4, 0, 1]
    ++ [0, 5, 0, 0, 0, 13, 0, 0, 0, 0, 0, 0, 0, 1, 0xB1, 0, 0, 0, 0, 0, 0]

/-- A module is applied that has a hook called in all methods of all classes. -/
def applyEager (className : String) (file : Bytes) : BuilderCall :=
  .apply { Agent.sampleModule with hook := ⟨className, .memory [(internalName className, file)]⟩ }
    ⟨.default, default⟩

/-- The rules are replaced between two modules. The hook class of the second one is left alone. -/
theorem hooks_spared_sample :
    ∃ p s', (buildAfter ([applyEager "G" (hookFile [0x47]), .withIgnoreRules .empty]
          ++ [applyEager "H" (hookFile [0x48])])).run (.start (MemoryHost.new #[])) = (.ok p, s')
      ∧ p.rules.map (·.hook.className) = ["G", "H"] ∧ p.Spares "H"
      ∧ ∃ s'', (p.transform MemoryHost.loaderOps ⟨some "H", none, false, hookFile [0x48]⟩).run
          (.start (.new #[])) = (.ok none, s'') ∧ s''.records = #[] := by
  have hnames : ([applyEager "H" (hookFile [0x48])].filterMap BuilderCall.rule?).map
      (·.hook.className) = ["H"] := by
    decide +kernel
  have hall : (([applyEager "G" (hookFile [0x47]), .withIgnoreRules .empty]
      ++ [applyEager "H" (hookFile [0x48])]).filterMap BuilderCall.rule?).map (·.hook.className)
      = ["G", "H"] := by
    decide +kernel
  obtain ⟨r, hr, hname⟩ := List.mem_map.1 (hnames ▸ List.mem_singleton_self "H")
  have hempty : IgnoreRules.NeverPanic MemoryHost.loaderOps (fun h => h.loaders = #[]) .empty :=
    ⟨fun _ _ => ⟨_, rfl⟩, fun _ _ => ⟨_, rfl⟩⟩
  obtain ⟨p, s', hrun, hrules, hspared⟩ := @hooks_spared MemoryHost
    [applyEager "G" (hookFile [0x47]), .withIgnoreRules .empty]
    [applyEager "H" (hookFile [0x48])] (by simp [applyEager]) (.start (.new #[]))
  obtain ⟨hspares, hquiet⟩ := hspared r hr
  obtain ⟨-, htransform⟩ := hquiet MemoryHost.loaderOps (fun h => h.loaders = #[])
    (MemoryHost.reliable_loaderOps fun h hloaders => hloaders) (by simp [applyEager, hempty])
    (.start (.new #[])) rfl
  rw [hname] at hspares htransform
  have hbinary : binaryName "H" = "H" := by decide +kernel
  exact ⟨p, s', hrun, by rw [hrules, hall], hspares, htransform ⟨some "H", none, false, _⟩ hbinary⟩

/-- Whether a pipeline that is built after some calls weaves a class. -/
def weavesAfter (calls : List BuilderCall) (r : TransformRequest) : Bool :=
  match ((do (← buildAfter calls).transform MemoryHost.loaderOps r : Act MemoryHost _).run
      (.start (.new #[]))).1 with
  | .ok (some _) => true
  | _ => false

/-- Where a class is woven after some calls, there are the pipeline and its answer. -/
theorem exists_of_weavesAfter {calls : List BuilderCall} {r : TransformRequest}
    (h : weavesAfter calls r = true) :
    ∃ p s' out s'', (buildAfter calls).run (.start (.new #[])) = (.ok p, s')
      ∧ (p.transform MemoryHost.loaderOps r).run s' = (.ok (some out), s'') := by
  unfold weavesAfter at h
  split at h
  case h_1 out hfst =>
    obtain ⟨p, s', hbuild, hrun⟩ := exists_of_run_bind (Prod.ext hfst rfl)
    exact ⟨p, s', out, _, hbuild, hrun⟩
  case h_2 => cases h

/-- **A hook is woven into itself** if the ignore rules are replaced after its module was applied. -/
theorem hooks_woven :
    ∃ p s' out s'', (buildAfter [applyEager "H" (hookFile [0x48]), .withIgnoreRules .empty]).run
        (.start (.new #[])) = (.ok p, s')
      ∧ p.rules.map (·.hook.className) = ["H"]
      ∧ TransformRequest.AsksFor ⟨some "H", none, false, hookFile [0x48]⟩ "H"
      ∧ (p.transform MemoryHost.loaderOps ⟨some "H", none, false, hookFile [0x48]⟩).run s'
          = (.ok (some out), s'') := by
  have hwoven : weavesAfter [applyEager "H" (hookFile [0x48]), .withIgnoreRules .empty]
      ⟨some "H", none, false, hookFile [0x48]⟩ = true := by
    decide +kernel
  have hnames : ([applyEager "H" (hookFile [0x48]), .withIgnoreRules .empty].filterMap
      BuilderCall.rule?).map (·.hook.className) = ["H"] := by
    decide +kernel
  obtain ⟨p, s', out, s'', hbuild, hrun⟩ := exists_of_weavesAfter hwoven
  obtain ⟨p', s₁, hbuild', -, hrules⟩ := exists_run_buildAfter
    [applyEager "H" (hookFile [0x48]), .withIgnoreRules .empty] (.start (MemoryHost.new #[]))
  rw [hbuild] at hbuild'
  cases hbuild'
  have hbinary : binaryName "H" = "H" := by decide +kernel
  refine ⟨p, s', out, s'', hbuild, ?_, hbinary, hrun⟩
  rw [hrules, rules_foldl]
  exact hnames

/-- **A hook is woven into itself** if its module spells it as class files do: the builder shelters that
very name, which no class has among the names that the ignore rules see. -/
theorem slashed_hooks_woven :
    ¬ TransformRequest.AsksFor ⟨some "a/H", none, false, hookFile [0x61, 0x2F, 0x48]⟩ "a/H"
      ∧ ∃ p s' out s'', (buildAfter [applyEager "a/H" (hookFile [0x61, 0x2F, 0x48])]).run
          (.start (.new #[])) = (.ok p, s')
        ∧ (p.transform MemoryHost.loaderOps ⟨some "a/H", none, false, hookFile [0x61, 0x2F, 0x48]⟩).run
          s' = (.ok (some out), s'') := by
  have hwoven : weavesAfter [applyEager "a/H" (hookFile [0x61, 0x2F, 0x48])]
      ⟨some "a/H", none, false, hookFile [0x61, 0x2F, 0x48]⟩ = true := by
    decide +kernel
  have hslash : '/' ∈ "a/H".toList := by decide
  exact ⟨TransformRequest.not_asksFor_of_slash hslash nofun, exists_of_weavesAfter hwoven⟩

end PipelineBuilder

end AdviceWeaver

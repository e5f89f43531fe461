import AdviceWeaver.Agent.Basic
import AdviceWeaver.Proofs.Pipeline.Questions
import AdviceWeaver.Proofs.Sequencing
import AdviceWeaver.Proofs.Session.Triples

/-!
# Pipelines out of a builder

A builder starts with the default ignore rules and adds the names of hook classes. Such rules look at
names only, so the pipelines that it builds have ignore rules that decide at once and never panic.

## Main results

* `Agent.run_applyAll` — what modules add to a builder and leave in the journal.
* `Pipeline.calm_ofModules` — modules keep the ignore rules calm.
* `Agent.run_buildAndInstall` — what is built of modules is installed.
-/

namespace AdviceWeaver

open Act

variable {ε : Type} {ops : LoaderOps ε} {fits : ε → Prop} {tracer : Tracer} {s : Session ε}
  {m : Module}

/-! ### Matchers that decide at once -/

namespace Matcher

/-- The matcher answers what a test says, in every session, and leaves no trace. -/
def Decides (ops : LoaderOps ε) {k : Kind} (m : Matcher k) (test : Target k → Bool) : Prop :=
  ∀ (s : Session ε) (t : Target k), (m.eval ops t).run s = (.ok (.ok (test t)), s)

/-- A constant matcher decides at once. -/
theorem decides_constant {k : Kind} (value : Bool) :
    (constant value : Matcher k).Decides ops fun _ => value :=
  fun _ _ => rfl

/-- A test of the name of a type decides at once. -/
theorem decides_name (test : NameTest) (text : String) :
    (name test text : Matcher .type).Decides ops
      fun t => test.holds (TypeDescription.name t) text :=
  fun _ _ => rfl

/-- A test of the type of a loader decides at once. -/
theorem decides_loaderNamed (type : String) :
    (loaderNamed type).Decides ops fun l => LoaderDescription.typeName l = some type :=
  fun _ _ => rfl

/-- An alternative decides at once if both of its sides do. -/
theorem Decides.or {k : Kind} {m n : Matcher k} {test test' : Target k → Bool}
    (hm : m.Decides ops test) (hn : n.Decides ops test') :
    (Matcher.or m n).Decides ops fun t => test t || test' t := by
  intro s t
  refine (run_bind_ok (hm s t)).trans ?_
  dsimp only
  cases test t with
  | false => exact hn s t
  | true => rfl

end Matcher

/-! ### Ignore rules that decide at once -/

namespace IgnoreRules

variable {rules : IgnoreRules}

/-- The rules look at nothing but the name of a class and its loader. -/
structure Calm (ops : LoaderOps ε) (rules : IgnoreRules) : Prop where
  types : ∃ test : String → Bool, rules.types.Decides ops fun t => test (TypeDescription.name t)
  loaders : ∃ test : LoaderDescription → Bool, rules.loaders.Decides ops test

/-- Calm rules never panic. -/
theorem Calm.neverPanic (h : rules.Calm ops) : rules.NeverPanic ops fits := by
  obtain ⟨⟨test, htypes⟩, test', hloaders⟩ := h
  exact ⟨fun {s} l _ => ⟨.ok (test' l), congrArg Prod.fst (hloaders s l)⟩,
    fun {s} t _ => ⟨.ok (test t.name), congrArg Prod.fst (htypes s t)⟩⟩

/-- **Calm rules** decide on the name of a class and its loader, and leave no trace. -/
theorem Calm.exists_covers (h : rules.Calm ops) :
    ∃ hit : String → LoaderDescription → Bool, ∀ (s : Session ε) (t : TypeDescription)
      (l : LoaderDescription), (rules.covers ops t l).run s = (.ok (hit t.name l), s)
        ∧ rules.ignores ops s t l = hit t.name l := by
  obtain ⟨⟨test, htypes⟩, test', hloaders⟩ := h
  refine ⟨fun name l => test' l || test name, fun s t l => ⟨?_, ?_⟩⟩
  · refine (run_bind_ok (hloaders s l)).trans ?_
    dsimp only
    cases test' l with
    | false => exact run_bind_ok (htypes s t)
    | true => rfl
  · simp only [ignores, Matcher.agreesOrFails, Matcher.verdict, htypes s t, hloaders s l]

/-- Rules stay calm when a loader is ignored by a matcher that decides at once. -/
theorem Calm.ignoreLoader (h : rules.Calm ops) {m : Matcher .loader}
    {test : LoaderDescription → Bool} (hm : m.Decides ops test) :
    (rules.ignoreLoader m).Calm ops := by
  obtain ⟨test', hloaders⟩ := h.loaders
  exact ⟨h.types, _, hloaders.or hm⟩

/-- Rules stay calm when types are ignored by name. -/
theorem Calm.ignoreName (h : rules.Calm ops) (test : NameTest) (text : String) :
    (rules.ignoreType (.name test text)).Calm ops := by
  obtain ⟨test', htypes⟩ := h.types
  exact ⟨⟨fun name => test' name || test.holds name text, htypes.or (Matcher.decides_name test text)⟩,
    h.loaders⟩

/-- Rules stay calm when a list of names is ignored. -/
theorem Calm.foldl_ignoreType (h : rules.Calm ops) (test : NameTest) (texts : List String) :
    (texts.foldl (fun rules text => rules.ignoreType (.name test text)) rules).Calm ops := by
  induction texts generalizing rules with
  | nil => exact h
  | cons text rest ih => exact ih (h.ignoreName test text)

/-- The default rules are calm. -/
theorem calm_default : IgnoreRules.default.Calm ops := by
  have hempty : IgnoreRules.empty.Calm ops :=
    ⟨⟨fun _ => false, Matcher.decides_constant false⟩, fun _ => false,
      Matcher.decides_constant false⟩
  have hreflection : Matcher.isReflectionLoader.Decides ops _ :=
    (Matcher.decides_loaderNamed "sun.reflect.DelegatingClassLoader").or
      (Matcher.decides_loaderNamed "jdk.internal.reflect.DelegatingClassLoader")
  have hloaders := (hempty.ignoreLoader hreflection).ignoreLoader
    (Matcher.decides_loaderNamed "org.codehaus.groovy.runtime.callsite.CallSiteClassLoader")
  exact (hloaders.foldl_ignoreType .startsWith _).foldl_ignoreType .contains _

end IgnoreRules

/-! ### Builders -/

/-- The rule of a module, if the module can be initialized. -/
def Module.rule (m : Module) (tracer : Tracer) : Except CompileError Rule :=
  match (m.init tracer).outcome with
  | .done => Rule.compile m
  | .failed message => .error (.init message)
  | .panicked => .error .initPanicked

/-- A rule has the types of its module. -/
theorem Rule.types_of_compile {m : Module} {r : Rule} (h : compile m = .ok r) :
    r.types = m.types := by
  obtain ⟨found, -, h⟩ := except_bind_eq_ok.1 h
  cases found with
  | none => cases h
  | some bytes =>
    obtain ⟨c, -, h⟩ := except_bind_eq_ok.1 h
    obtain ⟨enter, -, h⟩ := except_bind_eq_ok.1 h
    obtain ⟨exit, -, h⟩ := except_bind_eq_ok.1 h
    split at h
    · cases h
    · cases h
      rfl

/-- The rule of a module has the type matcher of the module. -/
theorem Module.types_of_rule {m : Module} {tracer : Tracer} {r : Rule}
    (h : m.rule tracer = .ok r) : r.types = m.types := by
  unfold rule at h
  split at h
  · exact Rule.types_of_compile h
  · cases h
  · cases h

namespace PipelineBuilder

/-- With the rule of one more module, whose hook class is not to be woven. A module without a rule
adds nothing. -/
def joined (b : PipelineBuilder) (m : Module) (tracer : Tracer) : PipelineBuilder :=
  match m.rule tracer with
  | .ok r => ⟨b.ignore.ignoreHookClass r.hook.className, b.rules ++ [r]⟩
  | .error _ => b

/-- With the rules of the modules that are active. -/
def joinedAll (tracer : Tracer) (b : PipelineBuilder) : List Module → PipelineBuilder
  | [] => b
  | m :: rest => joinedAll tracer (if m.isIncluded tracer.core then b.joined m tracer else b) rest

/-- Modules keep the ignore rules calm. -/
theorem calm_joinedAll {b : PipelineBuilder} (hb : b.ignore.Calm ops) (tracer : Tracer)
    (modules : List Module) : (b.joinedAll tracer modules).ignore.Calm ops := by
  induction modules generalizing b with
  | nil => exact hb
  | cons m rest ih =>
    refine ih ?_
    split
    · unfold joined
      split
      · exact hb.ignoreName .equals _
      · exact hb
    · exact hb

/-- Rules are made of nothing but modules. -/
theorem exists_module_of_mem_rules {b : PipelineBuilder} {tracer : Tracer} {modules : List Module}
    {r : Rule} (hr : r ∈ (b.joinedAll tracer modules).rules) :
    r ∈ b.rules ∨ ∃ m ∈ modules, m.rule tracer = .ok r := by
  induction modules generalizing b with
  | nil => exact .inl hr
  | cons m rest ih =>
    rcases ih hr with hjoined | ⟨m', hm', hrule⟩
    · split at hjoined
      · unfold joined at hjoined
        split at hjoined
        · next r' hrule =>
          rcases List.mem_append.1 hjoined with hb | hnew
          · exact .inl hb
          · obtain rfl := List.mem_singleton.1 hnew
            exact .inr ⟨m, List.mem_cons_self, hrule⟩
        · exact .inl hjoined
      · exact .inl hjoined
    · exact .inr ⟨m', List.mem_cons_of_mem m hm', hrule⟩

end PipelineBuilder

/-! ### What modules leave in the journal -/

namespace Module

/-- The journal after a module was asked to initialize itself. -/
def initialized (m : Module) (tracer : Tracer) (j : Journal) : Journal :=
  (m.init tracer).events.foldl Journal.log
    (if m.notesInit then j.note (.initializing m.number m.name) else j)

/-- The journal after a module was applied, or passed over because it is not included. -/
def applied (tracer : Tracer) (j : Journal) (m : Module) : Journal :=
  if m.isIncluded tracer.core then
    let tried := m.initialized tracer
      (j.log ⟨.debug, "Applying advice " ++ m.name, [("advice", m.name)]⟩)
    match m.rule tracer with
    | .ok _ => tried
    | .error e => tried.log ⟨.warn, "not applying advice " ++ m.name,
        [("advice", m.name), ("error", e.message)]⟩
  else j.log ⟨.debug, "advice " ++ m.name ++ " is disabled", [("advice", m.name)]⟩

end Module

/-! ### Applying modules -/

/-- Logging one event after the other adds them all to the journal. -/
theorem Act.run_forM_log (events : List LogEvent) (s : Session ε) :
    (events.forM fun e => log e.level e.message e.fields : Act ε Unit).run s
      = (.ok (), { s with journal := events.foldl Journal.log s.journal }) := by
  induction events generalizing s with
  | nil => rfl
  | cons e rest ih => exact (run_bind_ok rfl).trans (ih _)

namespace PipelineBuilder

/-- **Preparing a module** initializes it, with its events in the journal, and makes its rule. -/
theorem run_prepare : (prepare m tracer).run s
    = (.ok (m.rule tracer), { s with journal := m.initialized tracer s.journal }) := by
  have hreport (s : Session ε) : (do
      (m.init tracer).events.forM fun e => log e.level e.message e.fields
      match (m.init tracer).outcome with
      | .done => return .ok ()
      | .failed message => return .error (.init message)
      | .panicked => return .error .initPanicked : Act ε (Except CompileError Unit)).run s
      = (.ok (match (m.init tracer).outcome with
        | .done => .ok ()
        | .failed message => .error (.init message)
        | .panicked => .error .initPanicked),
        { s with journal := (m.init tracer).events.foldl Journal.log s.journal }) := by
    rw [run_bind_ok (run_forM_log _ s)]
    cases (m.init tracer).outcome with
    | done => rfl
    | failed message => rfl
    | panicked => rfl
  have hinitialize : (initialize_ m tracer).run s
      = (.ok (match (m.init tracer).outcome with
        | .done => .ok ()
        | .failed message => .error (.init message)
        | .panicked => .error .initPanicked),
        { s with journal := m.initialized tracer s.journal }) := by
    unfold initialize_ Module.initialized
    cases m.notesInit with
    | false => exact hreport s
    | true => exact (run_bind_ok rfl).trans (hreport _)
  unfold prepare Module.rule
  rw [run_bind_ok hinitialize]
  cases (m.init tracer).outcome with
  | done => rfl
  | failed message => rfl
  | panicked => rfl

/-- A module of an active group joins the pipeline. -/
theorem run_apply (b : PipelineBuilder) (hincluded : m.isIncluded tracer.core = true) :
    (b.apply m tracer).run s
      = (.ok (b.joined m tracer), { s with journal := m.applied tracer s.journal }) := by
  unfold apply joined Module.applied
  rw [run_bind_ok (run_log _ _ _), run_bind_ok run_prepare, if_pos hincluded]
  cases m.rule tracer with
  | error e => rfl
  | ok r => rfl

end PipelineBuilder

/-- **Applying modules** touches nothing but the builder and the journal. -/
theorem Agent.run_applyAll (b : PipelineBuilder) (modules : List Module) :
    (applyAll tracer b modules).run s = (.ok (b.joinedAll tracer modules),
      { s with journal := modules.foldl (Module.applied tracer) s.journal }) := by
  induction modules generalizing b s with
  | nil => rfl
  | cons m rest ih =>
    unfold applyAll PipelineBuilder.joinedAll
    by_cases hincluded : m.isIncluded tracer.core = true
    · rw [if_pos hincluded, if_pos hincluded, List.foldl_cons]
      exact (run_bind_ok (PipelineBuilder.run_apply b hincluded)).trans (ih _)
    · rw [if_neg hincluded, if_neg hincluded, List.foldl_cons]
      refine (run_bind_ok (run_log _ _ _)).trans ((ih b).trans ?_)
      rw [Module.applied, if_neg hincluded]

/-! ### Pipelines of modules -/

/-- The pipeline that is built of some modules, with a certain record. -/
def Pipeline.ofModules (tracer : Tracer) (modules : List Module) (record : RecordId) : Pipeline :=
  ⟨record, (PipelineBuilder.new.joinedAll tracer modules).ignore,
    (PipelineBuilder.new.joinedAll tracer modules).rules⟩

/-- A pipeline that is made of modules has calm rules: it ignores its hook classes by name. -/
theorem Pipeline.calm_ofModules (tracer : Tracer) (modules : List Module) (record : RecordId) :
    (ofModules tracer modules record).ignore.Calm ops := by
  have hdefault : PipelineBuilder.new.ignore.Calm ops := IgnoreRules.calm_default
  exact PipelineBuilder.calm_joinedAll hdefault tracer modules

/-- The rules of a pipeline ask about types what its modules ask. -/
theorem Pipeline.forall_rules_ofModules {tracer : Tracer} {modules : List Module} {record : RecordId}
    {property : Matcher .type → Prop} (h : ∀ m ∈ modules, property m.types) :
    ∀ r ∈ (ofModules tracer modules record).rules, property r.types := by
  intro r hr
  rcases PipelineBuilder.exists_module_of_mem_rules hr with hnew | ⟨m, hm, hrule⟩
  · cases hnew
  · rw [Module.types_of_rule hrule]
    exact h m hm

/-- The journal after a pipeline was built of some modules. -/
def Agent.built (tracer : Tracer) (modules : List Module) (j : Journal) : Journal :=
  (modules.foldl (Module.applied tracer) j).log ⟨.info, "Applied "
    ++ toString (PipelineBuilder.new.joinedAll tracer modules).applied ++ " advices", []⟩

/-- **Building a pipeline** gives it a new record, in which there is nothing yet, and leaves nothing
else but traces in the journal. -/
theorem Agent.run_buildAndInstall {hosts : HostOps ε} {h : HostId}
    {modules : Act ε (List Module)} {found : List Module} {s₁ : Session ε}
    (hmodules : modules.run s = (.ok found, s₁)) :
    (buildAndInstall ops hosts tracer h modules).run s
      = match ((Pipeline.ofModules tracer found s₁.records.size).installOn ops hosts h).run
          { s₁ with journal := built tracer found s₁.journal, records := s₁.records.push [] } with
        | (.ok (.ok ()), s') =>
          (.ok (.ok (Pipeline.ofModules tracer found s₁.records.size)), s')
        | (.ok (.error e), s') => (.ok (.error e), s')
        | (.error p, s') => (.error p, s') := by
  have hbuild : (PipelineBuilder.new.joinedAll tracer found).build.run
      { s₁ with journal := found.foldl (Module.applied tracer) s₁.journal }
      = (.ok (Pipeline.ofModules tracer found s₁.records.size),
        { s₁ with journal := built tracer found s₁.journal, records := s₁.records.push [] }) := by
    unfold PipelineBuilder.build
    rw [run_bind_ok (run_log _ _ _)]
    rfl
  unfold buildAndInstall
  rw [run_bind_ok hmodules, run_bind_ok (run_applyAll _ _), run_bind_ok hbuild]
  rcases hinstall : ((Pipeline.ofModules tracer found s₁.records.size).installOn ops hosts h).run
    { s₁ with journal := built tracer found s₁.journal, records := s₁.records.push [] }
    with ⟨p | e | ⟨⟩, s'⟩
  · rw [run_bind_error hinstall]
  · rw [run_bind_ok hinstall]
    rfl
  · rw [run_bind_ok hinstall]
    rfl

/-- What building a pipeline leaves in the journal does not matter to most. -/
theorem Agent.exists_run_buildAndInstall {hosts : HostOps ε} {h : HostId} {tracer : Tracer}
    {modules : Act ε (List Module)} {found : List Module} {s s₁ : Session ε}
    (hmodules : modules.run s = (.ok found, s₁)) :
    ∃ journal, (buildAndInstall ops hosts tracer h modules).run s
      = match ((Pipeline.ofModules tracer found s₁.records.size).installOn ops hosts h).run
          { s₁ with journal, records := s₁.records.push [] } with
        | (.ok (.ok ()), s') =>
          (.ok (.ok (Pipeline.ofModules tracer found s₁.records.size)), s')
        | (.ok (.error e), s') => (.ok (.error e), s')
        | (.error p, s') => (.error p, s') :=
  ⟨_, run_buildAndInstall hmodules⟩

end AdviceWeaver

import AdviceWeaver.Proofs.Agent.Calls
import AdviceWeaver.Proofs.Pipeline.Building

/-!
# Which modules become active

A module becomes a rule of the pipeline if the settings admit it, if it can be initialized, and if its
hook class is found, can be read, and has a method to call (`Module.Activates`). A module of which this
is not so leaves nothing but traces in the journal, at whatever stage it fails.

An agent asks all modules before it calls the host. So what the modules leave in the journal is known
when the pipeline is installed, whatever the host does then (`Agent.applied`).

## Main results

* `Module.activeRule_eq_some_iff` — the rule of a module is told by what its hook class declares.
* `Agent.run_applyAll` — what modules add to a builder and to the journal.
* `Agent.activation` — an agent that was initialized has the rules of its active modules.
-/

namespace AdviceWeaver

open Act

variable {ε α β : Type} {ops : LoaderOps ε} {hosts : HostOps ε} {h : HostId} {tracer : Tracer}
  {s s' : Session ε} {c : ClassFile} {name : String} {m : Module} {r : Rule}

/-! ### Hook classes -/

namespace ClassFile

/-- A method is a hook method of this name. -/
structure IsHook (c : ClassFile) (name : String) (m : MethodInfo) : Prop where
  static : Access.has m.access Access.isStatic = true
  name : c.pool.getText m.name = .ok name
  descriptor : c.pool.getText m.descriptor = .ok Hook.descriptor

/-- A method is not a hook method of this name, and what has to be read to tell so can be read. The name
of a method that is not static need not be readable, and neither need the descriptor of one that has
another name. -/
def PassesOver (c : ClassFile) (name : String) (m : MethodInfo) : Prop :=
  Access.has m.access Access.isStatic = false
  ∨ (∃ other, c.pool.getText m.name = .ok other ∧ other ≠ name)
  ∨ (c.pool.getText m.name = .ok name
    ∧ ∃ other, c.pool.getText m.descriptor = .ok other ∧ other ≠ Hook.descriptor)

/-- Whether the class has a hook method of this name, found by a scan that meets nothing unreadable on
its way. The scan ends at the first hook method. -/
def Declares (c : ClassFile) (name : String) : Bool → Prop
  | true => ∃ before m after, c.methods = before ++ m :: after
    ∧ (∀ x ∈ before, c.PassesOver name x) ∧ c.IsHook name m
  | false => ∀ m ∈ c.methods, c.PassesOver name m

end ClassFile

namespace Rule

/-- Looking at a method succeeds with one of two answers. -/
theorem isHookMethod_eq_ok_iff {m : MethodInfo} {found : Bool} :
    isHookMethod c name m = .ok found
      ↔ (found = true ∧ c.IsHook name m) ∨ (found = false ∧ c.PassesOver name m) := by
  unfold isHookMethod
  cases hstatic : Access.has m.access Access.isStatic with
  | false =>
    have hno : ¬ c.IsHook name m := fun h => Bool.false_ne_true (hstatic.symm.trans h.static)
    have hpasses : c.PassesOver name m := .inl hstatic
    simp [hno, hpasses, pure, Except.pure, eq_comm]
  | true =>
    simp only [Bool.not_true, Bool.false_eq_true, if_false, except_bind_eq_ok]
    constructor
    · rintro ⟨text, hname, h⟩
      by_cases hother : text ≠ name
      · rw [if_pos hother, except_pure_eq_ok] at h
        exact .inr ⟨h.symm, .inr (.inl ⟨text, hname, hother⟩)⟩
      · rw [if_neg hother, except_bind_eq_ok] at h
        obtain rfl := not_not.1 hother
        obtain ⟨descriptor, hdescriptor, h⟩ := h
        obtain rfl := except_pure_eq_ok.1 h
        by_cases hfits : descriptor = Hook.descriptor
        · subst hfits
          exact .inl ⟨decide_eq_true rfl, hstatic, hname, hdescriptor⟩
        · exact .inr ⟨decide_eq_false hfits, .inr (.inr ⟨hname, descriptor, hdescriptor, hfits⟩)⟩
    · rintro (⟨rfl, hhook⟩ | ⟨rfl, hnot | ⟨other, hname, hother⟩ | ⟨hname, other, hother, hne⟩⟩)
      · exact ⟨name, hhook.name, by simp [hhook.descriptor]⟩
      · exact absurd (hnot.symm.trans hstatic) Bool.false_ne_true
      · exact ⟨other, hname, by simp [hother]⟩
      · exact ⟨name, hname, by simp [hother, hne]⟩

/-- A scan ends at the first hook method. -/
theorem anyHookMethod_eq_true_iff {methods : List MethodInfo} :
    anyHookMethod c name methods = .ok true ↔ ∃ before m after, methods = before ++ m :: after
      ∧ (∀ x ∈ before, c.PassesOver name x) ∧ c.IsHook name m := by
  induction methods with
  | nil => simp [anyHookMethod]
  | cons first rest ih =>
    unfold anyHookMethod
    rw [except_bind_eq_ok]
    constructor
    · rintro ⟨found, hfound, h⟩
      rcases isHookMethod_eq_ok_iff.1 hfound with ⟨rfl, hhook⟩ | ⟨rfl, hpasses⟩
      · exact ⟨[], first, rest, rfl, nofun, hhook⟩
      · obtain ⟨before, m, after, rfl, hbefore, hhook⟩ := ih.1 h
        exact ⟨first :: before, m, after, rfl, List.forall_mem_cons.2 ⟨hpasses, hbefore⟩, hhook⟩
    · rintro ⟨before, m, after, heq, hbefore, hhook⟩
      cases before with
      | nil =>
        cases heq
        exact ⟨true, isHookMethod_eq_ok_iff.2 (.inl ⟨rfl, hhook⟩), rfl⟩
      | cons passed before =>
        cases heq
        obtain ⟨hpasses, hbefore⟩ := List.forall_mem_cons.1 hbefore
        exact ⟨false, isHookMethod_eq_ok_iff.2 (.inr ⟨rfl, hpasses⟩),
          ih.2 ⟨before, m, after, rfl, hbefore, hhook⟩⟩

/-- A hook class has no such method exactly if each of its methods is passed over. -/
theorem anyHookMethod_eq_false_iff {methods : List MethodInfo} :
    anyHookMethod c name methods = .ok false ↔ ∀ m ∈ methods, c.PassesOver name m := by
  induction methods with
  | nil => simp [anyHookMethod]
  | cons first rest ih =>
    unfold anyHookMethod
    rw [except_bind_eq_ok, List.forall_mem_cons, ← ih]
    constructor
    · rintro ⟨found, hfound, h⟩
      rcases isHookMethod_eq_ok_iff.1 hfound with ⟨rfl, -⟩ | ⟨rfl, hpasses⟩
      · cases h
      · exact ⟨hpasses, h⟩
    · rintro ⟨hpasses, h⟩
      exact ⟨false, isHookMethod_eq_ok_iff.2 (.inr ⟨rfl, hpasses⟩), h⟩

/-- **Hook classes** are told by their methods. -/
theorem declaresHook_eq_ok_iff {found : Bool} :
    declaresHook c name = .ok found ↔ c.Declares name found := by
  cases found with
  | false => exact anyHookMethod_eq_false_iff
  | true => exact anyHookMethod_eq_true_iff

end Rule

/-! ### Active modules -/

namespace Module

/-- The settings admit a module. -/
def IsAdmitted (m : Module) (core : CoreConfiguration) : Prop :=
  (∀ g ∈ m.groups, g ∉ core.disabled) ∧ (m.alwaysOn = true ∨ core.instrument = true)

instance (m : Module) (core : CoreConfiguration) : Decidable (m.IsAdmitted core) :=
  inferInstanceAs (Decidable (_ ∧ _))

/-- **Active:** the settings admit the module, its initialization succeeds, and its hook class — which
its own locator finds — has a method to call. The rule is that of the module. -/
structure Activates (m : Module) (tracer : Tracer) (r : Rule) : Prop where
  admitted : m.IsAdmitted tracer.core
  initialized : (m.init tracer).outcome = .done
  hook : ∃ bytes c, m.hook.locator.locate m.hook.internal = .ok (some bytes)
    ∧ ClassFile.read bytes = .ok c
    ∧ c.Declares Hook.enterName r.enter ∧ c.Declares Hook.exitName r.exit
  called : r.enter = true ∨ r.exit = true
  own : r = { advice := m.name, types := m.types, methods := m.methods, loaders := m.loaders,
              hook := m.hook, enter := r.enter, exit := r.exit }

/-- The rule of a module, if it becomes active. -/
def activeRule (tracer : Tracer) (m : Module) : Option Rule :=
  if m.isIncluded tracer.core then (m.rule tracer).toOption else none

/-- A module is included exactly if the configuration admits it. -/
theorem isIncluded_iff {core : CoreConfiguration} :
    m.isIncluded core = true ↔ m.IsAdmitted core := by
  simp [isIncluded, IsAdmitted]

end Module

/-- A result does not depend on how failures are told. -/
theorem except_mapError_eq_ok {ε ε' : Type} {x : Except ε α} {f : ε → ε'} {a : α} :
    x.mapError f = .ok a ↔ x = .ok a := by
  cases x with
  | error e => exact ⟨nofun, nofun⟩
  | ok b => simp [Except.mapError]

/-- Compiling a module succeeds if its hook class has a method to call. -/
theorem Rule.compile_eq_ok_iff : Rule.compile m = .ok r
    ↔ (∃ bytes c, m.hook.locator.locate m.hook.internal = .ok (some bytes)
        ∧ ClassFile.read bytes = .ok c
        ∧ c.Declares Hook.enterName r.enter ∧ c.Declares Hook.exitName r.exit)
      ∧ (r.enter = true ∨ r.exit = true)
      ∧ r = { advice := m.name, types := m.types, methods := m.methods, loaders := m.loaders,
              hook := m.hook, enter := r.enter, exit := r.exit } := by
  unfold compile
  simp only [except_bind_eq_ok, except_mapError_eq_ok]
  constructor
  · rintro ⟨found, hfound, h⟩
    cases found with
    | none => cases h
    | some bytes =>
      simp only [except_bind_eq_ok, except_mapError_eq_ok, declaresHook_eq_ok_iff] at h
      obtain ⟨c, hread, enter, henter, exit, hexit, h⟩ := h
      split at h
      · cases h
      · next hcalled =>
        obtain rfl := except_pure_eq_ok.1 h
        refine ⟨⟨bytes, c, hfound, hread, henter, hexit⟩, ?_, rfl⟩
        by_contra hneither
        exact hcalled (by simpa using hneither)
  · rintro ⟨⟨bytes, c, hfound, hread, henter, hexit⟩, hcalled, hown⟩
    refine ⟨some bytes, hfound, ?_⟩
    simp only [except_bind_eq_ok, except_mapError_eq_ok, declaresHook_eq_ok_iff]
    refine ⟨c, hread, r.enter, henter, r.exit, hexit, ?_⟩
    rw [if_neg (by simpa [or_iff_not_imp_left] using hcalled), hown]
    rfl

/-- **Active modules** have their own rule, and no other module has one. -/
theorem Module.activeRule_eq_some_iff : m.activeRule tracer = some r ↔ m.Activates tracer r := by
  have hrule : m.rule tracer = .ok r
      ↔ (m.init tracer).outcome = .done ∧ Rule.compile m = .ok r := by
    unfold rule
    cases (m.init tracer).outcome with
    | done => simp
    | failed message => simp
    | panicked => simp
  have htoOption : (m.rule tracer).toOption = some r ↔ m.rule tracer = .ok r := by
    cases m.rule tracer with
    | error e => exact ⟨nofun, nofun⟩
    | ok r' => simp [Except.toOption]
  unfold activeRule
  constructor
  · intro h
    split at h
    · next hincluded =>
      obtain ⟨hdone, hcompile⟩ := hrule.1 (htoOption.1 h)
      obtain ⟨hhook, hcalled, hown⟩ := Rule.compile_eq_ok_iff.1 hcompile
      exact ⟨isIncluded_iff.1 hincluded, hdone, hhook, hcalled, hown⟩
    · cases h
  · rintro ⟨hadmitted, hdone, hhook, hcalled, hown⟩
    rw [if_pos (isIncluded_iff.2 hadmitted), htoOption, hrule]
    exact ⟨hdone, Rule.compile_eq_ok_iff.2 ⟨hhook, hcalled, hown⟩⟩

/-- Active modules add their rules in order. -/
theorem PipelineBuilder.joinedAll_eq (b : PipelineBuilder) (modules : List Module) :
    b.joinedAll tracer modules
      = ⟨(modules.filterMap (Module.activeRule tracer)).foldl
            (fun rules r => rules.ignoreHookClass r.hook.className) b.ignore,
          b.rules ++ modules.filterMap (Module.activeRule tracer)⟩ := by
  induction modules generalizing b with
  | nil => simp [joinedAll]
  | cons m rest ih =>
    unfold joinedAll
    rw [ih, List.filterMap_cons]
    unfold Module.activeRule joined
    by_cases hincluded : m.isIncluded tracer.core = true
    · simp only [if_pos hincluded]
      cases m.rule tracer with
      | error e => simp [Except.toOption]
      | ok r => simp [Except.toOption]
    · simp only [if_neg hincluded]

/-! ### Answers of pipelines -/

/-- What an action answers depends on how it goes on after its first part only. -/
theorem Act.fst_run_bind_congr {a : Act ε α} {f g : α → Act ε β}
    (hfg : ∀ x s, ((f x).run s).1 = ((g x).run s).1) :
    ((a >>= f).run s).1 = ((a >>= g).run s).1 := by
  rcases hrun : a.run s with ⟨p | x, s₁⟩
  · rw [run_bind_error hrun, run_bind_error hrun]
  · rw [run_bind_ok hrun, run_bind_ok hrun]
    exact hfg x s₁

/-- What a pipeline answers does not depend on where it records the classes that it weaves. -/
theorem Pipeline.fst_run_transform_record (p : Pipeline) (record : RecordId) (r : TransformRequest) :
    (({ p with record }.transform ops r).run s).1 = ((p.transform ops r).run s).1 := by
  have hweave (bytes : Bytes) (c : ClassFile) (t : TypeDescription) (plan : WeavePlan)
      (s : Session ε) : (({ p with record }.weaveInto bytes c t plan : Act ε _).run s).1
        = ((p.weaveInto bytes c t plan).run s).1 := by
    unfold weaveInto
    split
    · rfl
    · split
      · rfl
      · rfl
      · rfl
  have htype (l : LoaderDescription) (c : ClassFile) (t : TypeDescription) (s : Session ε) :
      (({ p with record }.transformType ops r l c t).run s).1
        = ((p.transformType ops r l c t).run s).1 := by
    unfold transformType
    refine fst_run_bind_congr fun pool s => ?_
    dsimp only
    split
    · refine fst_run_bind_congr fun hit s => ?_
      split
      · rfl
      · exact fst_run_bind_congr fun plan s => hweave _ _ _ plan s
    · exact fst_run_bind_congr fun plan s => hweave _ _ _ plan s
  have hbytes (l : LoaderDescription) (s : Session ε) :
      (({ p with record }.transformBytes ops r l).run s).1 = ((p.transformBytes ops r l).run s).1 := by
    unfold transformBytes
    dsimp only
    split
    · rfl
    · split
      · rfl
      · exact htype l _ _ s
  unfold transform
  refine fst_run_bind_congr fun l s => ?_
  split
  · exact hbytes l s
  · refine fst_run_bind_congr fun hit s => ?_
    split
    · rfl
    · exact hbytes l s

/-! ### Notes of modules -/

/-- Events leave the notes as they are. -/
theorem Journal.notes_log (j : Journal) (e : LogEvent) : (j.log e).notes = j.notes := by
  unfold log
  split
  · rfl
  · rfl

/-- Logging leaves no notes. -/
theorem Journal.notes_foldl_log (events : List LogEvent) (j : Journal) :
    (events.foldl Journal.log j).notes = j.notes := by
  induction events generalizing j with
  | nil => rfl
  | cons e rest ih => exact (ih _).trans (j.notes_log e)

namespace Module

/-- The notes of modules that are asked to initialize themselves, the latest first. -/
def initNotes (core : CoreConfiguration) (modules : List Module) : List Note :=
  (modules.filter fun m => decide (m.IsAdmitted core) && m.notesInit).reverse.map fun m =>
    .initializing m.number m.name

/-- A module that is initialized notes so, if it wants to. -/
theorem notes_initialized (j : Journal) : (m.initialized tracer j).notes
    = (if m.notesInit then [.initializing m.number m.name] else []) ++ j.notes := by
  unfold initialized
  rw [Journal.notes_foldl_log]
  cases m.notesInit with
  | false => rfl
  | true => rfl

/-- A module that is applied leaves the notes of its initialization and no others. -/
theorem notes_applied (j : Journal) :
    (m.applied tracer j).notes = initNotes tracer.core [m] ++ j.notes := by
  unfold applied initNotes
  by_cases hincluded : m.isIncluded tracer.core = true
  · have hadmitted : m.IsAdmitted tracer.core := isIncluded_iff.1 hincluded
    have hnotes : (m.initialized tracer
        (j.log ⟨.debug, "Applying advice " ++ m.name, [("advice", m.name)]⟩)).notes
        = (if m.notesInit then [.initializing m.number m.name] else []) ++ j.notes := by
      rw [notes_initialized, Journal.notes_log]
    rw [if_pos hincluded, List.filter_singleton, decide_eq_true hadmitted, Bool.true_and]
    cases m.rule tracer with
    | error e =>
      refine (Journal.notes_log _ _).trans (hnotes.trans ?_)
      cases m.notesInit with
      | false => rfl
      | true => rfl
    | ok r =>
      refine hnotes.trans ?_
      cases m.notesInit with
      | false => rfl
      | true => rfl
  · have hadmitted : ¬ m.IsAdmitted tracer.core := fun h => hincluded (isIncluded_iff.2 h)
    rw [if_neg hincluded, Journal.notes_log, List.filter_singleton, decide_eq_false hadmitted]
    rfl

/-- **Initialization is asked for once** of each module that the settings admit, in order, and of no
other. -/
theorem notes_foldl_applied (modules : List Module) (j : Journal) :
    (modules.foldl (applied tracer) j).notes = initNotes tracer.core modules ++ j.notes := by
  induction modules generalizing j with
  | nil => rfl
  | cons m rest ih =>
    have hsplit : initNotes tracer.core (m :: rest)
        = initNotes tracer.core rest ++ initNotes tracer.core [m] := by
      unfold initNotes
      rw [← List.map_append, ← List.reverse_append, ← List.filter_append]
      rfl
    rw [List.foldl_cons, ih, notes_applied, hsplit, List.append_assoc]

end Module

/-! ### Activation -/

namespace Agent

open AgentAct

/-- **Activation is policy and compilation.** Let an agent that has no pipeline be initialized with
some modules. If the host takes the pipeline, its rules are those of the active modules, in order.

All modules are asked before the pipeline is installed: when the host is called and the first matcher
is evaluated, the world and the type pools are as the modules found them, and the notes in the journal
say which modules were initialized. The modules that are not active might as well be left out, for the
ignore rules, the rules, and the answers of the pipeline are the same without them. -/
theorem activation {source : Act ε (List Module)} {modules : List Module} {a a' : Agent}
    {s s₀ s' : Session ε} (ha : a.installed = none) (hsource : source.run s = (.ok modules, s₀))
    (hrun : (initInstrumentation ops hosts tracer h source).runFrom a s
      = ((.ok (.ok ()), a'), s')) :
    ∃ (p : Pipeline) (rule? : Module → Option Rule) (journal : Journal),
      a' = { a with installed := some ⟨h, p⟩ }
      ∧ (∀ m r, rule? m = some r ↔ m.Activates tracer r)
      ∧ p.rules = modules.filterMap rule?
      ∧ journal = built tracer modules s₀.journal
      ∧ journal.notes = Module.initNotes tracer.core modules ++ s₀.journal.notes
      ∧ (p.installOn ops hosts h).run { s₀ with journal, records := s₀.records.push [] }
        = (.ok (.ok ()), s')
      ∧ ∀ (hosts' : HostOps ε) (h' : HostId) (source' : Act ε (List Module)) (b b' : Agent)
          (t t₀ t' : Session ε), b.installed = none
        → source'.run t = (.ok (modules.filter fun m => (rule? m).isSome), t₀)
        → (initInstrumentation ops hosts' tracer h' source').runFrom b t = ((.ok (.ok ()), b'), t')
        → ∃ p', b'.installed = some ⟨h', p'⟩ ∧ p'.ignore = p.ignore ∧ p'.rules = p.rules
          ∧ ∀ r u, ((p'.transform ops r).run u).1 = ((p.transform ops r).run u).1 := by
  -- The filtered list is installed by another agent on another host, so this is said of any.
  have hinstalled {hosts : HostOps ε} {h : HostId} {source : Act ε (List Module)}
      {modules : List Module} {a a' : Agent} {s s₀ s' : Session ε} (ha : a.installed = none)
      (hsource : source.run s = (.ok modules, s₀))
      (hrun : (initInstrumentation ops hosts tracer h source).runFrom a s
        = ((.ok (.ok ()), a'), s')) :
      a' = { a with installed := some ⟨h, .ofModules tracer modules s₀.records.size⟩ }
      ∧ ((Pipeline.ofModules tracer modules s₀.records.size).installOn ops hosts h).run
          { s₀ with journal := built tracer modules s₀.journal, records := s₀.records.push [] }
        = (.ok (.ok ()), s') := by
    rw [runFrom_initInstrumentation_of_none ha, run_buildAndInstall hsource] at hrun
    rcases hinstall : ((Pipeline.ofModules tracer modules s₀.records.size).installOn ops hosts h).run
      { s₀ with journal := built tracer modules s₀.journal, records := s₀.records.push [] }
      with ⟨p | e | ⟨⟩, s₁⟩
    · rw [hinstall] at hrun
      cases hrun
    · rw [hinstall] at hrun
      cases hrun
    · rw [hinstall] at hrun
      cases hrun
      exact ⟨rfl, rfl⟩
  obtain ⟨ha', hinstall⟩ := hinstalled ha hsource hrun
  refine ⟨_, Module.activeRule tracer, _, ha', fun m r => Module.activeRule_eq_some_iff, ?_, rfl, ?_,
    hinstall, ?_⟩
  · unfold Pipeline.ofModules
    rw [PipelineBuilder.joinedAll_eq]
    rfl
  · unfold built
    rw [Journal.notes_log, Module.notes_foldl_applied]
  · intro hosts' h' source' b b' t t₀ t' hb hsource' hrun'
    obtain ⟨hb', -⟩ := hinstalled hb hsource' hrun'
    have hsame : Pipeline.ofModules tracer (modules.filter fun m => (m.activeRule tracer).isSome)
        t₀.records.size
        = { Pipeline.ofModules tracer modules s₀.records.size with record := t₀.records.size } := by
      unfold Pipeline.ofModules
      rw [PipelineBuilder.joinedAll_eq, PipelineBuilder.joinedAll_eq, List.filterMap_filter]
      have hrules : (fun m => if (Module.activeRule tracer m).isSome then m.activeRule tracer else none)
          = Module.activeRule tracer := by
        funext m
        cases m.activeRule tracer with
        | none => rfl
        | some r => rfl
      rw [hrules]
    refine ⟨_, congrArg Agent.installed hb', ?_⟩
    rw [hsame]
    exact ⟨rfl, rfl, fun r u => Pipeline.fst_run_transform_record _ _ r⟩

/-- Modules of which only the last one becomes active: one is switched off, two cannot be initialized,
and the hook class of one is missing. -/
def sampleModules : List Module :=
  [{ sampleModule with name := "off", groups := ["off"], notesInit := true },
    { sampleModule with name := "fails", init := fun _ => ⟨[], .failed "no"⟩, notesInit := true },
    { sampleModule with name := "panics", init := fun _ => ⟨[], .panicked⟩, notesInit := true },
    { sampleModule with name := "lost", hook := ⟨"H", .memory []⟩, notesInit := true },
    { sampleModule with notesInit := true }]

/-- The settings switch off one of the modules. -/
def sampleTracer : Tracer :=
  ⟨.disable .default "off", default⟩

/-- Whether the module that becomes active is the last one. -/
def sampleActivates : Bool :=
  match (initInstrumentation MemoryHost.loaderOps MemoryHost.hostOps sampleTracer 0
      (return sampleModules)).runFrom .new (.start (.new #[])) with
  | ((.ok (.ok ()), a'), _) => match a'.installed with
    | some i => i.pipeline.rules.map Rule.advice = ["sample"]
    | none => false
  | _ => false

/-- The other modules leave no rule, but all that are admitted are asked to initialize themselves. -/
theorem activation_sample :
    ∃ (a' : Agent) (s' : Session MemoryHost) (p : Pipeline) (rule? : Module → Option Rule)
        (journal : Journal),
      (initInstrumentation MemoryHost.loaderOps MemoryHost.hostOps sampleTracer 0
        (return sampleModules)).runFrom .new (.start (.new #[])) = ((.ok (.ok ()), a'), s')
      ∧ a'.installed = some ⟨0, p⟩
      ∧ p.rules = sampleModules.filterMap rule? ∧ p.rules.map Rule.advice = ["sample"]
      ∧ (∀ m r, rule? m = some r ↔ m.Activates sampleTracer r)
      ∧ journal.notes = [.initializing 0 "sample", .initializing 0 "lost", .initializing 0 "panics",
        .initializing 0 "fails"]
      ∧ (p.installOn MemoryHost.loaderOps MemoryHost.hostOps 0).run
          { Session.start (MemoryHost.new #[]) with journal, records := #[[]] }
        = (.ok (.ok ()), s') := by
  have hcheck : sampleActivates = true := by
    decide +kernel
  unfold sampleActivates at hcheck
  split at hcheck
  case h_2 => cases hcheck
  next a' s' hrun =>
  obtain ⟨p, rule?, journal, rfl, hrules, hp, -, hnotes, hinstall, -⟩ := activation rfl rfl hrun
  refine ⟨_, s', p, rule?, journal, hrun, rfl, hp, of_decide_eq_true hcheck, hrules, ?_, hinstall⟩
  rw [hnotes]
  decide

end Agent

end AdviceWeaver

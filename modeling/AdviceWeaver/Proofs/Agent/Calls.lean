import AdviceWeaver.Agent.Basic
import AdviceWeaver.Hosting.Memory
import AdviceWeaver.Proofs.Session.Triples

/-!
# The calls of an agent

An agent decides by its own state what a call does: without a pipeline it can be initialized, with one
it can be reset, and the other call of the two leaves the host alone. What the calls of an agent do is
told here for every way in which the calls that they make may end.

## Main results

* `Agent.runFrom_of_isInitialized` — initializing an agent once more is no more than a warning, but
  for the place of its archive.
* `Agent.runFrom_initInstrumentation_of_none`, `Agent.runFrom_reset_of_some` — the calls that have an
  effect.
-/

namespace AdviceWeaver

open Act

variable {ε α β : Type} {ops : LoaderOps ε} {hosts : HostOps ε} {h : HostId} {tracer : Tracer}
  {modules : Act ε (List Module)} {jar : Option String} {s s' : Session ε} {a a' : Agent}

/-! ### Running agents -/

namespace AgentAct

/-- The result of an action with the agent and the session that it leaves. -/
def runFrom (x : AgentAct ε α) (a : Agent) (s : Session ε) :
    (Except Panic α × Agent) × Session ε :=
  (x.run.run a).run s

/-- A step of an agent runs on with the agent and the session that the first one left. -/
theorem runFrom_bind (x : AgentAct ε α) (f : α → AgentAct ε β) :
    (x >>= f).runFrom a s = match x.runFrom a s with
      | ((.ok v, a₁), s₁) => (f v).runFrom a₁ s₁
      | ((.error p, a₁), s₁) => ((.error p, a₁), s₁) := by
  have hbind : (x >>= f).runFrom a s
      = ((ExceptT.bindCont f (x.runFrom a s).1.1).run (x.runFrom a s).1.2).run (x.runFrom a s).2 :=
    rfl
  rw [hbind]
  rcases x.runFrom a s with ⟨⟨p | v, a₁⟩, s₁⟩
  · rfl
  · rfl

/-- What acts on the session alone keeps the agent. -/
theorem runFrom_ofAct_bind (x : Act ε α) (f : α → AgentAct ε β) :
    (ofAct x >>= f).runFrom a s = match x.run s with
      | (.ok v, s₁) => (f v).runFrom a s₁
      | (.error p, s₁) => ((.error p, a), s₁) := by
  have hofAct : (ofAct x).runFrom a s = (((x.run s).1, a), (x.run s).2) := rfl
  rw [runFrom_bind, hofAct]
  rcases x.run s with ⟨p | v, s₁⟩
  · rfl
  · rfl

end AgentAct

namespace Agent

open AgentAct

/-- The session with one more warning in its journal. -/
def warned (s : Session ε) : Session ε :=
  { s with journal :=
      s.journal.log ⟨.warn, "Instrumentation has already been initialized", []⟩ }

/-! ### Initializing -/

/-- An agent that has a pipeline keeps it. Neither the modules nor the host are asked for anything. -/
theorem runFrom_initInstrumentation_of_some (ha : a.isInitialized = true) :
    (initInstrumentation ops hosts tracer h modules).runFrom a s
      = ((.ok (.ok ()), a), warned s) := by
  have hagent : (agent : AgentAct ε Agent).runFrom a s = ((.ok a, a), s) := rfl
  unfold initInstrumentation
  rw [runFrom_bind, hagent]
  dsimp only
  rw [if_pos ha]
  rfl

/-- An agent without a pipeline takes the one that it builds, if that could be installed. -/
theorem runFrom_initInstrumentation_of_none (ha : a.installed = none) :
    (initInstrumentation ops hosts tracer h modules).runFrom a s
      = match (buildAndInstall ops hosts tracer h modules).run s with
        | (.ok (.ok p), s') => ((.ok (.ok ()), { a with installed := some ⟨h, p⟩ }), s')
        | (.ok (.error e), s') => ((.ok (.error (.host e)), a), s')
        | (.error p, s') => ((.error p, a), s') := by
  have hagent : (agent : AgentAct ε Agent).runFrom a s = ((.ok a, a), s) := rfl
  have hnot : ¬ a.isInitialized = true := by
    rw [isInitialized, ha]
    exact Bool.false_ne_true
  unfold initInstrumentation
  rw [runFrom_bind, hagent]
  dsimp only
  rw [if_neg hnot]
  refine (runFrom_ofAct_bind _ _).trans ?_
  rcases (buildAndInstall ops hosts tracer h modules).run s with ⟨p | e | p, s'⟩
  · rfl
  · rfl
  · rfl

/-- An agent notes where its archive is before it looks at its pipeline. -/
theorem runFrom_initializeWith :
    (initializeWith ops hosts tracer h jar modules).runFrom a s
      = (initInstrumentation ops hosts tracer h modules).runFrom { a with jar } s :=
  runFrom_bind _ _

/-- **Initializing an agent once more** succeeds with a warning and leaves its pipeline, its host and
the session as they are, whatever the host and the modules would do if they were called. But the place
of its archive is what was said last. -/
theorem initialize_of_isInitialized (ha : a.isInitialized = true) :
    (initInstrumentation ops hosts tracer h modules).runFrom a s = ((.ok (.ok ()), a), warned s)
      ∧ (initializeWith ops hosts tracer h jar modules).runFrom a s
        = ((.ok (.ok ()), { a with jar }), warned s)
      ∧ (((initializeWith ops hosts tracer h jar modules).runFrom a s).1.2 = a ↔ jar = a.jar) := by
  have hagain : (initializeWith ops hosts tracer h jar modules).runFrom a s
      = ((.ok (.ok ()), { a with jar }), warned s) :=
    runFrom_initializeWith.trans (runFrom_initInstrumentation_of_some ha)
  refine ⟨runFrom_initInstrumentation_of_some ha, hagain, ?_⟩
  rw [hagain]
  constructor
  · intro heq
    exact congrArg Agent.jar heq
  · rintro rfl
    rfl

/-- A hook class `H` that wants to be called before the body of a method. -/
def sampleHook : Bytes :=
  [0xCA, 0xFE, 0xBA, 0xBE, 0, 0, 0, 0x34, 0, 5]
    ++ [1, 0, 1, 0x48, 7, 0, 1, 1, 0, 13]
    ++ [0x6F, 0x6E, 0x4D, 0x65, 0x74, 0x68, 0x6F, 0x64, 0x45, 0x6E, 0x74, 0x65, 0x72]
    ++ [1, 0, 3, 0x28, 0x29, 0x56]
    ++ [0, 0x21, 0, 2, 0, 0, 0, 0, 0, 0, 0, 1, 0, 9, 0, 3, 0, 4, 0, 0, 0, 0]

/-- A module that has the hook called in all methods of all classes. -/
def sampleModule : Module where
  number := 0
  name := "sample"
  groups := []
  types := .constant true
  methods := .constant true
  loaders := .constant true
  hook := ⟨"H", .memory [("H", sampleHook)]⟩
  alwaysOn := true
  init _ := ⟨[], .done⟩
  notesInit := false

/-- An agent that has a pipeline is initialized once more, by an archive of the same place. -/
theorem initialize_of_isInitialized_sample :
    (⟨some ⟨0, ⟨0, .empty, []⟩⟩, some "agent.jar"⟩ : Agent).isInitialized = true
      ∧ ((initializeWith MemoryHost.loaderOps MemoryHost.hostOps ⟨.default, default⟩ 0
        (some "agent.jar") (return [])).runFrom ⟨some ⟨0, ⟨0, .empty, []⟩⟩, some "agent.jar"⟩
        (.start (.new #[]))).1.2 = ⟨some ⟨0, ⟨0, .empty, []⟩⟩, some "agent.jar"⟩ :=
  ⟨rfl, (initialize_of_isInitialized rfl).2.2.2 rfl⟩

/-- An agent on a host in memory, initialized by an archive at this place. -/
def initializeAt (jar : String) : AgentAct MemoryHost (Except AgentError Unit) :=
  initializeWith MemoryHost.loaderOps MemoryHost.hostOps ⟨.default, default⟩ 0 (some jar) (return [])

/-- The second archive takes the place of the first one, although the agent is initialized by then. -/
theorem initializeAt_moves_home :
    let once := (initializeAt "first/agent.jar").runFrom .new (.start (.new #[]))
    let twice := (initializeAt "second/agent.jar").runFrom once.1.2 once.2
    once.1.2.isInitialized = true ∧ once.1.2.home = some "first" ∧ (twice.1.1 matches .ok (.ok ()))
      ∧ twice.1.2.home = some "second" := by
  dsimp only
  decide +kernel

/-! ### Resetting -/

/-- An agent without a pipeline refuses to be reset. -/
theorem runFrom_reset_of_none (ha : a.installed = none) :
    (reset hosts).runFrom a s
      = ((.ok (.error (.illegalState "Reset was called before init")), a), s) := by
  have hagent : (agent : AgentAct ε Agent).runFrom a s = ((.ok a, a), s) := rfl
  unfold reset
  rw [runFrom_bind, hagent]
  dsimp only
  rw [ha]
  rfl

/-- The agent gives its pipeline up before the host takes it out. -/
theorem runFrom_reset_of_some {i : Installed} (ha : a.installed = some i) :
    (reset hosts).runFrom a s
      = match (i.pipeline.resetOn hosts i.host).run s with
        | (.ok (.ok restored), s') => ((.ok (.ok ()), { a with installed := none }),
            { s' with journal :=
                s'.journal.log ⟨.debug, "restored " ++ toString restored ++ " classes", []⟩ })
        | (.ok (.error e), s') => ((.ok (.error (.host e)), { a with installed := none }), s')
        | (.error p, s') => ((.error p, { a with installed := none }), s') := by
  have hagent : (agent : AgentAct ε Agent).runFrom a s = ((.ok a, a), s) := rfl
  have hchange : (change fun a => { a with installed := none } : AgentAct ε Unit).runFrom a s
      = ((.ok (), { a with installed := none }), s) := rfl
  unfold reset
  rw [runFrom_bind, hagent]
  dsimp only
  simp only [ha]
  rw [runFrom_bind, hchange]
  refine (runFrom_ofAct_bind _ _).trans ?_
  rcases (i.pipeline.resetOn hosts i.host).run s with ⟨p | e | restored, s'⟩
  · rfl
  · rfl
  · rfl

end Agent

end AdviceWeaver

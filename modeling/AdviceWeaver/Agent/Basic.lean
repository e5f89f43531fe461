import AdviceWeaver.Agent.Error
import AdviceWeaver.Pipeline.Builder
import AdviceWeaver.Pipeline.Installation
import AdviceWeaver.Text.Path

/-!
# The agent

An agent has at most one pipeline installed, on one host. Initializing an agent that has a pipeline
does nothing but log a warning; resetting one that has none is an error. Only the operations of this
module change the state of an agent; what they call acts on the session alone. A panic keeps the
state that was reached.
-/

namespace AdviceWeaver

/-- A pipeline and the host it is installed on. -/
structure Installed where
  host : HostId
  pipeline : Pipeline

/-- The state of an agent. -/
structure Agent where
  installed : Option Installed
  /-- Where the agent's own archive is, if that is known. -/
  jar : Option String

/-- What acts on an agent and a session. -/
abbrev AgentAct (ε α : Type) := ExceptT Panic (StateT Agent (StateM (Session ε))) α

namespace AgentAct

variable {ε α : Type}

/-- An action that leaves the agent as it is. -/
def ofAct (a : Act ε α) : AgentAct ε α :=
  ExceptT.mk fun agent => do return (← a.run, agent)

instance : MonadLift (Act ε) (AgentAct ε) := ⟨ofAct⟩

/-- The agent. -/
def agent : AgentAct ε Agent :=
  ExceptT.mk fun agent => return (.ok agent, agent)

/-- Changes the agent. -/
def change (f : Agent → Agent) : AgentAct ε Unit :=
  ExceptT.mk fun agent => return (.ok (), f agent)

end AgentAct

namespace Agent

variable {ε : Type}

/-- An agent without a pipeline. -/
def new : Agent := ⟨none, none⟩

def isInitialized (a : Agent) : Bool :=
  a.installed.isSome

/-- The directory of the agent's archive. -/
def home (a : Agent) : Option String :=
  a.jar.bind Path.parent

/-- Applies the modules that are active and logs the others. -/
def applyAll (tracer : Tracer) (b : PipelineBuilder) : List Module → Act ε PipelineBuilder
  | [] => return b
  | m :: rest => do
    if m.isIncluded tracer.core then
      let b ← b.apply m tracer
      applyAll tracer b rest
    else
      Act.log .debug ("advice " ++ m.name ++ " is disabled") [("advice", m.name)]
      applyAll tracer b rest

/-- Builds a pipeline of the modules that are active and installs it on a host. -/
def buildAndInstall (ops : LoaderOps ε) (hosts : HostOps ε) (tracer : Tracer) (h : HostId)
    (modules : Act ε (List Module)) : Act ε (Except HostError Pipeline) := do
  let builder ← applyAll tracer .new (← modules)
  let pipeline ← builder.build
  match ← pipeline.installOn ops hosts h with
  | .error e => return .error e
  | .ok () => return .ok pipeline

/-- Installs a pipeline of some modules, unless one is installed. The modules are asked for only
then. -/
def initInstrumentation (ops : LoaderOps ε) (hosts : HostOps ε) (tracer : Tracer) (h : HostId)
    (modules : Act ε (List Module)) : AgentAct ε (Except AgentError Unit) := do
  if (← AgentAct.agent).isInitialized then
    (Act.log .warn "Instrumentation has already been initialized" [] : Act ε Unit)
    return .ok ()
  match ← (buildAndInstall ops hosts tracer h modules : Act ε _) with
  | .error e => return .error (.host e)
  | .ok pipeline =>
    AgentAct.change fun a => { a with installed := some ⟨h, pipeline⟩ }
    return .ok ()

/-- Notes where the agent's archive is, and installs a pipeline of some modules. -/
def initializeWith (ops : LoaderOps ε) (hosts : HostOps ε) (tracer : Tracer) (h : HostId)
    (jar : Option String) (modules : Act ε (List Module)) :
    AgentAct ε (Except AgentError Unit) := do
  AgentAct.change fun a => { a with jar }
  initInstrumentation ops hosts tracer h modules

/-- Like `initializeWith`, with the settings in the environment. -/
def initializeFrom (ops : LoaderOps ε) (hosts : HostOps ε) (env : Environment) (h : HostId)
    (jar : Option String) (modules : Act ε (List Module)) :
    AgentAct ε (Except AgentError Unit) :=
  match Tracer.ofSource (.environment env) with
  | .error e => return .error (.config e)
  | .ok tracer => initializeWith ops hosts tracer h jar modules

/-- Takes the pipeline out and restores the classes that it wove. Afterwards no pipeline is
installed, even if the host fails. -/
def reset (hosts : HostOps ε) : AgentAct ε (Except AgentError Unit) := do
  match (← AgentAct.agent).installed with
  | none => return .error (.illegalState "Reset was called before init")
  | some i =>
    AgentAct.change fun a => { a with installed := none }
    match ← (i.pipeline.resetOn hosts i.host : Act ε _) with
    | .error e => return .error (.host e)
    | .ok restored =>
      (Act.log .debug ("restored " ++ toString restored ++ " classes") [] : Act ε Unit)
      return .ok ()

/-- Forgets the pipeline without telling the host, and says whether there was one. -/
def discard : AgentAct ε Bool := do
  let found := (← AgentAct.agent).isInitialized
  AgentAct.change fun a => { a with installed := none }
  return found

end Agent

end AdviceWeaver

import AdviceWeaver.Pipeline.Basic

/-!
# Building pipelines

A builder takes instrumentation modules one after the other, initializes and compiles each, and
keeps the rule that comes out. A module that fails is logged and passed over. Hook classes join the
ignore rules, so that no hook is ever woven into a hook.
-/

namespace AdviceWeaver

/-- The ignore rules and the rules so far. -/
structure PipelineBuilder where
  ignore : IgnoreRules
  rules : List Rule

namespace PipelineBuilder

variable {ε : Type}

/-- No rules, and the default ignore rules. -/
def new : PipelineBuilder := ⟨.default, []⟩

/-- Replaces the ignore rules. -/
def withIgnoreRules (b : PipelineBuilder) (rules : IgnoreRules) : PipelineBuilder :=
  { b with ignore := rules }

/-- The number of modules applied so far. -/
def applied (b : PipelineBuilder) : Nat :=
  b.rules.length

/-- Initializes a module. -/
def initialize_ (m : Module) (tracer : Tracer) : Act ε (Except CompileError Unit) := do
  if m.notesInit then Act.note (.initializing m.number m.name)
  let report := m.init tracer
  report.events.forM fun e => Act.log e.level e.message e.fields
  match report.outcome with
  | .done => return .ok ()
  | .failed message => return .error (.init message)
  | .panicked => return .error .initPanicked

/-- Initializes a module and makes its rule. -/
def prepare (m : Module) (tracer : Tracer) : Act ε (Except CompileError Rule) := do
  match ← initialize_ m tracer with
  | .error e => return .error e
  | .ok () => return Rule.compile m

/-- Adds the rule of a module. -/
def apply (b : PipelineBuilder) (m : Module) (tracer : Tracer) : Act ε PipelineBuilder := do
  Act.log .debug ("Applying advice " ++ m.name) [("advice", m.name)]
  match ← prepare m tracer with
  | .ok r => return ⟨b.ignore.ignoreHookClass r.hook.className, b.rules ++ [r]⟩
  | .error e =>
    Act.log .warn ("not applying advice " ++ m.name)
      [("advice", m.name), ("error", e.message)]
    return b

/-- The pipeline, with a record of its own. -/
def build (b : PipelineBuilder) : Act ε Pipeline := do
  Act.log .info ("Applied " ++ toString b.applied ++ " advices") []
  return ⟨← Act.newRecord, b.ignore, b.rules⟩

end PipelineBuilder

end AdviceWeaver

import AdviceWeaver.Ignoring.Rules
import AdviceWeaver.Instrumentation.Rule
import AdviceWeaver.Pipeline.Request
import AdviceWeaver.Weaving.Weave

/-!
# Pipelines

A pipeline takes a class file and answers its woven form, or nothing if the class stays as it is.
It asks its ignore rules first: by the name that the host gave, before the class file is even read,
or else by the description of the class. Then each rule in turn decides on the loader, the class and
its methods, and the hooks planned by all rules are woven in at once. Whatever goes wrong leaves the
class as it is and is written to the log.

The names of the classes that were woven are kept in a record of the session, which also tells
one pipeline from another.
-/

namespace AdviceWeaver

/-- Ignore rules and rules. -/
structure Pipeline where
  /-- The record of the classes that the pipeline wove. -/
  record : RecordId
  ignore : IgnoreRules
  rules : List Rule

namespace Pipeline

variable {ε : Type}

/-- A pipeline with its fields, given the number of classes it wove. -/
def debug (p : Pipeline) (transformed : Nat) : String :=
  Text.showRecord "Pipeline"
    [("rules", Text.showList Rule.debug p.rules), ("transformed", toString transformed)]

/-! ### Loaders in the log -/

/-- Chains of loaders that are longer are cut short in the log. -/
def maxLoaderDepth : Nat := 32

/-- Logs for a loader and those above it whether they can load the hook class of a rule, for at most
`depth` of them. A loader that was obtained as a parent is released. -/
def logLoaders (ops : LoaderOps ε) (r : Rule) (isParent : Bool) :
    Nat → Option LoaderId → Act ε Unit
  | _, none => Act.log .trace "reached the bootstrap classloader" [("advice", r.advice)]
  | 0, some l => do
    Act.log .trace
      ("class loader hierarchy deeper than " ++ toString maxLoaderDepth ++ ", stopping")
      [("advice", r.advice)]
    if isParent then ops.release l
  | depth + 1, some l => do
    let hookClass := r.hook.className
    let canLoad := ((← ops.canLoad l hookClass).toOption).getD false
    let text := (← ops.describe l).render
    Act.log .trace (text ++ " can load advice (" ++ hookClass ++ "): " ++ toString canLoad)
      [("advice", r.advice), ("loader", text)]
    match ← ops.parent l with
    | .error e =>
      Act.log .trace ("cannot get parent of " ++ text)
        [("advice", r.advice), ("error", e.message)]
      if isParent then ops.release l
    | .ok above =>
      if isParent then ops.release l
      logLoaders ops r true depth above

/-- Logs where the hook class of a rule comes from and which loaders can load it. -/
def logLoaderHierarchy (ops : LoaderOps ε) (r : Rule) (loader : Option LoaderId) : Act ε Unit := do
  Act.log .trace
    ("Advice " ++ r.hook.className ++ " is loaded by " ++ r.hook.locator.describe)
    [("advice", r.advice)]
  logLoaders ops r false maxLoaderDepth loader

/-! ### Planning -/

/-- Whether a method has a body of its own to weave into. -/
def hasBody (m : MethodDescription) : Bool :=
  !Access.has m.modifiers Access.isAbstract && !Access.has m.modifiers Access.isNative

/-- Adds the hook of a rule for each of the numbered methods that the rule matches. -/
def planMethods (ops : LoaderOps ε) (r : Rule) (plan : WeavePlan) :
    List (MethodDescription × Nat) → Act ε WeavePlan
  | [] => return plan
  | (m, number) :: rest => do
    if hasBody m then
      if ← r.matchesMethod ops m then
        return ← planMethods ops r (plan.add number r.hookCall) rest
    planMethods ops r plan rest

/-- Adds the hooks of the rules that match a class. -/
def planRules (ops : LoaderOps ε) (t : TypeDescription) (loader : Option LoaderId)
    (l : LoaderDescription) (plan : WeavePlan) : List Rule → Act ε WeavePlan
  | [] => return plan
  | r :: rest => do
    if ← r.matchesType ops t l then
      Act.whenKept .trace (logLoaderHierarchy ops r loader)
      let plan ← planMethods ops r plan t.methods.zipIdx
      planRules ops t loader l plan rest
    else planRules ops t loader l plan rest

/-! ### Transforming -/

/-- Weaves a plan into a class and records the class. -/
def weaveInto (p : Pipeline) (bytes : Bytes) (c : ClassFile) (t : TypeDescription)
    (plan : WeavePlan) : Act ε (Option Bytes) := do
  if plan.isEmpty then return none
  match weave bytes c plan with
  | .ok none => return none
  | .ok (some woven) =>
    Act.log .debug ("transformed " ++ t.name)
      [("type_name", t.name), ("methods", toString plan.size)]
    Act.record p.record t.name
    return some woven
  | .error e =>
    Act.log .warn ("cannot weave " ++ t.name ++ ", leaving it untouched")
      [("type_name", t.name), ("error", e.message)]
    return none

/-- Transforms a class that was described, unless the ignore rules hit it; they are asked here only
if the host gave no name. -/
def transformType (ops : LoaderOps ε) (p : Pipeline) (r : TransformRequest)
    (l : LoaderDescription) (c : ClassFile) (t : TypeDescription) : Act ε (Option Bytes) := do
  let source := match r.loader with
    | some loader => TypeSource.loader loader
    | none => .bootstrap
  let t := { t with pool := some (← Act.newPool source) }
  if r.className.isNone then
    if ← p.ignore.covers ops t l then return none
  let plan ← planRules ops t r.loader l .empty p.rules
  p.weaveInto r.bytes c t plan

/-- Reads and transforms a class. -/
def transformBytes (ops : LoaderOps ε) (p : Pipeline) (r : TransformRequest)
    (l : LoaderDescription) : Act ε (Option Bytes) := do
  let fields (e : FormatError) :=
    [("type_name", Text.showOption Text.quote r.className), ("error", e.message)]
  match ClassFile.read r.bytes with
  | .error e =>
    Act.log .debug "cannot parse class file" (fields e)
    return none
  | .ok c =>
    match TypeDescription.ofClassFile c with
    | .error e =>
      Act.log .debug "cannot describe class" (fields e)
      return none
    | .ok t => p.transformType ops r l c t

/-- The woven form of a class, or nothing if it stays as it is. -/
def transform (ops : LoaderOps ε) (p : Pipeline) (r : TransformRequest) :
    Act ε (Option Bytes) := do
  let l ← r.loaderDescription ops
  match r.className with
  | none => p.transformBytes ops r l
  | some name =>
    if ← p.ignore.coversName ops (binaryName name) l then return none
    p.transformBytes ops r l

end Pipeline

end AdviceWeaver

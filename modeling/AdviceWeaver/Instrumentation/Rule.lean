import AdviceWeaver.Instrumentation.Error
import AdviceWeaver.Instrumentation.Module
import AdviceWeaver.Matching.Evaluation
import AdviceWeaver.Weaving.Plan

/-!
# Rules

A rule is an instrumentation module that is ready for use: its hook class was found and declares at
least one of the two hook methods. A rule asks its matchers at the border of the engine, where a
matcher that fails or panics does not match and says so in the log.
-/

namespace AdviceWeaver

/-- Matchers, and the hook that is called where they match. -/
structure Rule where
  /-- The name of the module. -/
  advice : String
  types : Matcher .type
  methods : Matcher .method
  loaders : Matcher .loader
  hook : HookReference
  /-- Whether the hook class has a method to call before a method body. -/
  enter : Bool
  /-- Whether the hook class has a method to call before a normal return. -/
  exit : Bool
deriving Inhabited

namespace Rule

/-! ### Making rules -/

/-- Whether a method is a static hook method of this name. The name is read before the descriptor,
and neither is read if what comes first does not fit. -/
def isHookMethod (c : ClassFile) (name : String) (m : MethodInfo) : Except FormatError Bool := do
  if !Access.has m.access Access.isStatic then return false
  if (← c.pool.getText m.name) ≠ name then return false
  return (← c.pool.getText m.descriptor) = Hook.descriptor

/-- Whether one of the methods is a static hook method of this name; the methods behind the first
one are not looked at. -/
def anyHookMethod (c : ClassFile) (name : String) : List MethodInfo → Except FormatError Bool
  | [] => .ok false
  | m :: rest => do
    if ← isHookMethod c name m then return true
    anyHookMethod c name rest

/-- Whether a class declares a static hook method of this name. -/
def declaresHook (c : ClassFile) (name : String) : Except FormatError Bool :=
  anyHookMethod c name c.methods

/-- The rule of a module. -/
def compile (m : Module) : Except CompileError Rule := do
  let hookClass := m.hook.className
  let malformed := CompileError.hookMalformed hookClass
  let found ← (m.hook.locator.locate m.hook.internal).mapError (.locator hookClass)
  let some bytes := found | throw (.hookNotFound hookClass m.hook.locator.describe)
  let c ← (ClassFile.read bytes).mapError malformed
  let enter ← (declaresHook c Hook.enterName).mapError malformed
  let exit ← (declaresHook c Hook.exitName).mapError malformed
  if !enter && !exit then throw (.noHookMethods hookClass)
  return { advice := m.name, types := m.types, methods := m.methods, loaders := m.loaders,
           hook := m.hook, enter, exit }

/-- What the weaver inserts for the rule. -/
def hookCall (r : Rule) : Hook :=
  ⟨r.hook.internal, r.enter, r.exit⟩

/-- A rule with its fields; matchers are shown by their texts. -/
def debug (r : Rule) : String :=
  Text.showRecord "TransformRule"
    [("advice", Text.quote r.advice), ("type_matcher", Text.quote r.types.render),
     ("method_matcher", Text.quote r.methods.render), ("hook", r.hook.debug),
     ("enter", toString r.enter), ("exit", toString r.exit)]

/-! ### Asking rules -/

variable {ε : Type}

/-- The answer of a matcher of an advice, which is no if the matcher fails or panics. -/
def guarded (ops : LoaderOps ε) {k : Kind} (advice : String) (m : Matcher k) (t : Target k) :
    Act ε Bool := do
  let fields := [("advice", advice), ("target", t.render), ("matcher", m.render)]
  match ← Act.attempt (m.eval ops t) with
  | .ok (.ok hit) => return hit
  | .ok (.error e) =>
    Act.log .debug "matcher failed, treating as no match" (fields ++ [("error", e.message)])
    return false
  | .error _ =>
    Act.log .debug "matcher panicked, treating as no match" fields
    return false

/-- Whether the rule applies to the classes of a loader. -/
def matchesLoader (ops : LoaderOps ε) (r : Rule) (l : LoaderDescription) : Act ε Bool :=
  guarded ops (k := .loader) r.advice r.loaders l

/-- Whether the rule applies to a class of a loader. The class is looked at only if the loader
matches. -/
def matchesType (ops : LoaderOps ε) (r : Rule) (t : TypeDescription) (l : LoaderDescription) :
    Act ε Bool := do
  if !(← r.matchesLoader ops l) then return false
  if !(← guarded ops (k := .type) r.advice r.types t) then return false
  Act.log .debug
    ("Type match for advice " ++ r.advice ++ ": " ++ r.types.render ++ " matches " ++ t.name)
    [("advice", r.advice), ("type_name", t.name)]
  return true

/-- Whether the rule applies to a method. -/
def matchesMethod (ops : LoaderOps ε) (r : Rule) (m : MethodDescription) : Act ε Bool := do
  if !(← guarded ops (k := .method) r.advice r.methods m) then return false
  Act.log .debug
    ("Method match for advice " ++ r.advice ++ ": " ++ r.methods.render ++ " matches " ++ m.render)
    [("advice", r.advice), ("method", m.render)]
  return true

end Rule

end AdviceWeaver

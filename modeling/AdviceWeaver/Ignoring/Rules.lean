import AdviceWeaver.Matching.Evaluation

/-!
# Ignore rules

Classes that are never touched, whatever the instrumentation modules say. A class is ignored if a
rule hits its loader or the class itself; a rule that fails counts as a hit, so that a doubtful
class is left alone.
-/

namespace AdviceWeaver

/-- The loaders and types to leave alone. -/
structure IgnoreRules where
  types : Matcher .type
  loaders : Matcher .loader

namespace IgnoreRules

/-- Nothing is ignored. -/
def empty : IgnoreRules :=
  ⟨.constant false, .constant false⟩

def ignoreType (r : IgnoreRules) (m : Matcher .type) : IgnoreRules :=
  { r with types := .or r.types m }

def ignoreLoader (r : IgnoreRules) (m : Matcher .loader) : IgnoreRules :=
  { r with loaders := .or r.loaders m }

/-- Hook classes are ignored by their binary name. -/
def ignoreHookClass (r : IgnoreRules) (name : String) : IgnoreRules :=
  r.ignoreType (.name .equals name)

/-- What the names of classes of the platform and of other instrumenting libraries start with. -/
def ignoredStarts : List String :=
  ["java.", "com.sun.", "sun", "org.aspectj.", "org.groovy.", "com.p6spy.", "net.bytebuddy."]

/-- What occurs in the names of classes of other libraries that make bytecode. -/
def ignoredParts : List String :=
  ["javassist", ".asm."]

/-- The rules in force unless others are given. -/
def default : IgnoreRules :=
  let loaders := (empty.ignoreLoader Matcher.isReflectionLoader).ignoreLoader
    (.loaderNamed "org.codehaus.groovy.runtime.callsite.CallSiteClassLoader")
  let starts := ignoredStarts.foldl (fun r s => r.ignoreType (.name .startsWith s)) loaders
  ignoredParts.foldl (fun r s => r.ignoreType (.name .contains s)) starts

/-- The text of the rules. -/
def render (r : IgnoreRules) : String :=
  "ignore(types: " ++ r.types.render ++ ", loaders: " ++ r.loaders.render ++ ")"

variable {ε : Type}

/-- Whether a class of a loader is ignored. -/
def covers (ops : LoaderOps ε) (r : IgnoreRules) (t : TypeDescription) (l : LoaderDescription) :
    Act ε Bool := do
  let loaderHit ←
    match ← r.loaders.eval ops l with
    | .ok hit => pure hit
    | .error e => do
      Act.log .debug "ignore rule failed on class loader"
        [("loader", l.render), ("error", e.message)]
      pure true
  if loaderHit then return true
  match ← r.types.eval ops t with
  | .ok hit => return hit
  | .error e =>
    Act.log .debug "ignore rule failed on type" [("type_name", t.name), ("error", e.message)]
    return true

/-- Whether a class known only by its binary name is ignored. -/
def coversName (ops : LoaderOps ε) (r : IgnoreRules) (name : String) (l : LoaderDescription) :
    Act ε Bool :=
  r.covers ops (.ofName name) l

end IgnoreRules

end AdviceWeaver

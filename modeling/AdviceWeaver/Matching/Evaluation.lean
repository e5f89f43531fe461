import AdviceWeaver.Description.Hierarchy
import AdviceWeaver.Matching.Matcher

/-!
# Evaluating matchers

Both sides of a conjunction or disjunction are evaluated from left to right, and the right one only
if the left one leaves the answer open; a failure ends the evaluation. Looking for a super type
resolves one name after the other and stops at the first hit, so that a type that cannot be resolved
matters only if nothing nearer matched.
-/

namespace AdviceWeaver

variable {ε : Type}

/-- The answer of a matcher, or why it gave none. -/
abbrev Answer := Except MatchError Bool

namespace Matcher

/-- Whether some item passes a test; stops at the first hit or failure. -/
def anyOf {α : Type} (test : α → Act ε Answer) : List α → Act ε Answer
  | [] => return .ok false
  | a :: rest => do
    match ← test a with
    | .ok false => anyOf test rest
    | decided => return decided

/-- Visits the queue of a frontier in turn, at most `limit` names, until a type passes the test. -/
def searchAbove (ops : LoaderOps ε) (t : TypeDescription) (test : TypeDescription → Act ε Answer) :
    Nat → Frontier → Act ε Answer
  | 0, _ => return .ok false
  | limit + 1, f =>
    match f.queue with
    | [] => return .ok false
    | next :: rest => do
      match ← t.resolve ops next with
      | .error e => return .error e
      | .ok u =>
        match ← test u with
        | .ok false => searchAbove ops t test limit ((Frontier.mk f.seen rest).add u)
        | decided => return decided

/-- Whether the type itself or one of its super types passes a test. -/
def searchHierarchy (ops : LoaderOps ε) (t : TypeDescription)
    (test : TypeDescription → Act ε Answer) : Act ε Answer := do
  match ← test t with
  | .ok false => searchAbove ops t test (← t.stepLimit ops) (.above t)
  | decided => return decided

/-- The outcome of a judgement from outside. -/
def accept (j : Judgement) : Act ε Answer := do
  if let some note := j.note then Act.note (.text note)
  match j.verdict with
  | .answer hit => return .ok hit
  | .failed cause => return .error cause
  | .panicked => Act.panic

/-- The answer of a matcher for a target. -/
def eval (ops : LoaderOps ε) : {k : Kind} → Matcher k → Target k → Act ε Answer
  | _, .constant value, _ => return .ok value
  | _, .not m, t => do
    match ← eval ops m t with
    | .ok hit => return .ok (!hit)
    | failure => return failure
  | _, .and m n, t => do
    match ← eval ops m t with
    | .ok true => eval ops n t
    | decided => return decided
  | _, .or m n, t => do
    match ← eval ops m t with
    | .ok false => eval ops n t
    | decided => return decided
  | _, .name test text, t => return .ok (test.holds t.name text)
  | _, .modifier m, t => return .ok (Access.has t.modifiers m.flag)
  | _, .annotated type, t => return .ok (t.annotations.contains type)
  | _, .custom _ judge, t => accept (judge t)
  | _, .hasSuperType m, t => searchHierarchy ops t fun u => eval ops m u
  | _, .declaresMethod m, t => anyOf (fun d => eval ops m d) (TypeDescription.methods t)
  | _, .inPackage package, t =>
    return .ok (Text.startsWith (TypeDescription.name t) (packageStart package))
  | _, .isMethod, m => return .ok (MethodDescription.isMethod m)
  | _, .isConstructor, m => return .ok (MethodDescription.isConstructor m)
  | _, .takesArguments count, m =>
    return .ok ((MethodDescription.parameterTypes m).length = count)
  | _, .takesArgument index type, m =>
    return .ok ((MethodDescription.parameterTypes m)[index]? = some type)
  | _, .returns type, m => return .ok (MethodDescription.returnType m = type)
  | _, .hasDescriptor descriptor, m => return .ok (MethodDescription.descriptor m = descriptor)
  | _, .isBootstrapLoader, l => return .ok (LoaderDescription.isBootstrap l)
  | _, .loaderNamed type, l => return .ok (LoaderDescription.typeName l = some type)

end Matcher

end AdviceWeaver

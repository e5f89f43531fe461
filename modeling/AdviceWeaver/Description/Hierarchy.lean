import AdviceWeaver.Matching.Error
import AdviceWeaver.Session.Basic

/-!
# Type hierarchies

Super types are known by name and looked up in a type pool. The root of the hierarchy always
resolves. A pool made of class files remembers what it described and hands it out bound to itself,
so that the super types of what it hands out are looked up there as well; failures are not
remembered.

`superTypes` lists all super types, nearest first and each once: the super class of a type comes
before its interfaces, and these come in the order of their declaration. Each step takes one more
name from the pool, so the number of names in the pool bounds the walk.
-/

namespace AdviceWeaver

variable {ε : Type}

namespace TypePool

/-- Asks the source of a pool for the class file of a binary name. -/
def fetch (ops : LoaderOps ε) (source : TypeSource) (name : String) :
    Act ε (Except MatchError Bytes) := do
  let internal := internalName name
  let notFound : MatchError := .unresolvable name "class file not found"
  match source with
  | .described .. => return .error notFound
  | .files answers _ =>
    Act.note (.text ("source:" ++ internal))
    match answers internal with
    | .found bytes => return .ok bytes
    | .missing => return .error notFound
    | .fails message => return .error (.loader message)
  | .loader loader =>
    match ← ops.classFile loader internal with
    | .ok (some bytes) => return .ok bytes
    | .ok none => return .error notFound
    | .error e => return .error (.loader e.message)
  | .bootstrap =>
    return .error (.unresolvable (binaryName internal) "bootstrap class loader is not searchable")

/-- Remembers a description in a pool. -/
def remember (id : PoolId) (name : String) (t : TypeDescription) : Act ε Unit :=
  modify fun s =>
    { s with pools := s.pools.modify id fun p => { p with cache := (name, t) :: p.cache } }

/-- The description of a binary name. -/
def describe (ops : LoaderOps ε) (id : PoolId) (name : String) :
    Act ε (Except MatchError TypeDescription) := do
  let some pool := (← get).pools[id]? | return .error (.unresolvable name "no type pool")
  match pool.source with
  | .described types _ =>
    Act.note (.text ("describe:" ++ name))
    match types name with
    | some t => return .ok t
    | none => return .error (.unresolvable name "unknown")
  | source =>
    match pool.cache.lookup name with
    | some t => return .ok { t with pool := some id }
    | none =>
      match ← fetch ops source name with
      | .error e => return .error e
      | .ok bytes =>
        match TypeDescription.read bytes with
        | .error e => return .error (.format e)
        | .ok t =>
          remember id name t
          return .ok { t with pool := some id }

/-- A bound on the number of names that a pool resolves. -/
def extent (ops : LoaderOps ε) (s : Session ε) (id : PoolId) : Nat :=
  match s.pools[id]? with
  | none => 0
  | some pool =>
    match pool.source with
    | .described _ count | .files _ count => count
    | .loader loader => ops.extent s.world loader
    | .bootstrap => 0

end TypePool

namespace TypeDescription

/-- The description of a type that is visible from this one. -/
def resolve (ops : LoaderOps ε) (t : TypeDescription) (name : String) :
    Act ε (Except MatchError TypeDescription) :=
  if name = rootClass then return .ok (ofName rootClass)
  else
    match t.pool with
    | some id => TypePool.describe ops id name
    | none => return .error (.unresolvable name "no type pool")

/-- A bound on the number of steps up from a type: the names right above it, which need not be
spelled as its pool spells them, the names of its pool, the root, and one that does not resolve. -/
def stepLimit (ops : LoaderOps ε) (t : TypeDescription) : Act ε Nat := do
  let s ← get
  return t.superNames.length + (t.pool.map (TypePool.extent ops s)).getD 0 + 2

end TypeDescription

/-- The names met on the way up from a type, and those of them that are still to be visited. -/
structure Frontier where
  seen : List String
  queue : List String
deriving DecidableEq, Repr, Inhabited

namespace Frontier

/-- Adds a name unless it was met before. -/
def addName (f : Frontier) (name : String) : Frontier :=
  if name ∈ f.seen then f else ⟨name :: f.seen, f.queue ++ [name]⟩

/-- Adds the names that a type extends or implements. -/
def add (f : Frontier) (t : TypeDescription) : Frontier :=
  t.superNames.foldl addName f

/-- The names right above a type. -/
def above (t : TypeDescription) : Frontier :=
  add ⟨[], []⟩ t

end Frontier

namespace TypeDescription

/-- Visits the queue of a frontier in turn, at most `limit` names, and collects the descriptions
behind those of `done`, which are kept in reverse. -/
def superTypesFrom (ops : LoaderOps ε) (t : TypeDescription) :
    Nat → Frontier → List TypeDescription → Act ε (Except MatchError (List TypeDescription))
  | 0, _, done => return .ok done.reverse
  | limit + 1, f, done =>
    match f.queue with
    | [] => return .ok done.reverse
    | name :: rest => do
      match ← t.resolve ops name with
      | .error e => return .error e
      | .ok u => superTypesFrom ops t limit ((Frontier.mk f.seen rest).add u) (u :: done)

/-- All super classes and interfaces of a type, nearest first, each once. -/
def superTypes (ops : LoaderOps ε) (t : TypeDescription) :
    Act ε (Except MatchError (List TypeDescription)) := do
  superTypesFrom ops t (← t.stepLimit ops) (.above t) []

end TypeDescription

end AdviceWeaver

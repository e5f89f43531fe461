import AdviceWeaver.Failure
import AdviceWeaver.Pipeline.Basic

/-!
# Hosts

A host runs the program that is instrumented. It passes every class that it defines through the
transformers registered with it, and can pass classes that exist through them again, each time
starting from the initial class file.
-/

namespace AdviceWeaver

/-- Why a host refused a call. -/
inductive HostError where
  | retransformUnsupported
  | retransform (className reason : String)
  /-- A failure of the tool interface of a JVM. -/
  | toolInterface (message : String)
deriving DecidableEq, Repr, Inhabited

/-- The wording of a failure. -/
def HostError.message : HostError → String
  | .retransformUnsupported => "the host does not support retransformation"
  | .retransform className reason => "cannot retransform " ++ className ++ ": " ++ reason
  | .toolInterface message => message

/-- The kind of a failure. -/
def HostError.kind : HostError → String
  | .retransformUnsupported => "RetransformUnsupported"
  | .retransform .. => "Retransform"
  | .toolInterface _ => "Jvmti"

instance : Failure HostError := ⟨HostError.kind, HostError.message⟩

/-! ### Transformers -/

/-- What a transformer from outside does with one class, step by step. What it does next may depend on
the answers so far. -/
inductive ForeignWork where
  /-- The new form of the class, or nothing. -/
  | answer (out : Option Bytes)
  | panic
  | note (text : String) (next : ForeignWork)
  /-- Asks what is known of the loader of the class. -/
  | describe (next : LoaderDescription → ForeignWork)
  /-- Has a class loaded, or transformed again, before this one is done. -/
  | load (event : LoadEvent) (next : Option Bytes → ForeignWork)

/-- Does the work for a class. -/
def ForeignWork.run {ε : Type} (ops : LoaderOps ε) (r : TransformRequest) :
    ForeignWork → Act ε (Option Bytes)
  | answer out => return out
  | panic => Act.panic
  | note text next => do
    Act.note (.text text)
    next.run ops r
  | describe next => do (next (← r.loaderDescription ops)).run ops r
  | load event next => do (next (← ops.load event)).run ops r

/-- What a host calls for the classes it defines and for those it transforms again. -/
inductive Transformer where
  | pipeline (pipeline : Pipeline)
  /-- A transformer from outside, under a name. -/
  | custom (name : String) (work : TransformRequest → ForeignWork)

/-- What tells transformers apart. -/
inductive TransformerId where
  | pipeline (record : RecordId)
  | custom (name : String)
deriving DecidableEq, Repr, Inhabited

namespace Transformer

variable {ε : Type}

def id : Transformer → TransformerId
  | .pipeline p => .pipeline p.record
  | .custom name _ => .custom name

/-- The new form of a class, or nothing if the transformer leaves it as it is. -/
def transform (ops : LoaderOps ε) (t : Transformer) (r : TransformRequest) :
    Act ε (Option Bytes) :=
  match t with
  | .pipeline p => p.transform ops r
  | .custom _ work => (work r).run ops r

/-- Passes a class through transformers one after the other. Each sees what the ones before it left;
nothing comes out if all leave the class as it is. -/
def transformAll (ops : LoaderOps ε) (r : TransformRequest) :
    List Transformer → Act ε (Option Bytes)
  | [] => return none
  | t :: rest => do
    match ← t.transform ops r with
    | none => transformAll ops r rest
    | some bytes =>
      let later ← transformAll ops { r with bytes } rest
      return some (later.getD bytes)

/-- The transformers other than one of them, and whether that one was there. -/
def remove (t : Transformer) (all : List Transformer) : List Transformer × Bool :=
  (all.filter fun u => u.id ≠ t.id, all.any fun u => u.id = t.id)

end Transformer

/-! ### Operations of hosts -/

/-- The number of a host in the world. -/
abbrev HostId := Nat

/-- A class that a host has defined. -/
structure LoadedClass where
  /-- The binary name. -/
  name : String
  loader : LoaderDescription
  modifiable : Bool
  /-- What the host knows the class by. -/
  handle : Nat
deriving DecidableEq, Repr, Inhabited

/-- How the hosts of a world are called. -/
structure HostOps (ε : Type) where
  /-- Registers a transformer behind the others. -/
  addTransformer : HostId → Transformer → Act ε Unit
  /-- Unregisters a transformer and says whether it was registered. -/
  removeTransformer : HostId → Transformer → Act ε Bool
  supportsRetransform : HostId → Act ε Bool
  loadedClasses : HostId → Act ε (Except HostError (List LoadedClass))
  /-- Passes the initial class files of some classes through the transformers again. -/
  retransform : HostId → List LoadedClass → Act ε (Except HostError Unit)

end AdviceWeaver

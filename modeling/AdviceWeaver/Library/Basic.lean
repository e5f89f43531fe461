import AdviceWeaver.Agent.Basic
import AdviceWeaver.Jvm.Basic
import AdviceWeaver.Library.Context

/-!
# The agent library

An agent that is loaded into a JVM as a library. What the library keeps belongs to the process: one
host over the JVM's tool interface, one agent, and the identities of a few methods of the JVM. The
library and its JVM together are the world in which the engine then acts.
-/

namespace AdviceWeaver

/-- The host over the tool interface of the JVM. -/
structure ToolHost where
  supportsRetransform : Bool
  transformers : List Transformer

/-- The methods that the library calls; those that the JVM lacks are missing. -/
structure MethodIds where
  getName : Option MethodId
  getParent : Option MethodId
  loadClass : Option MethodId
  getResourceAsStream : Option MethodId
  readAllBytes : Option MethodId
  close : Option MethodId
deriving DecidableEq, Repr, Inhabited

/-- A class loader as the library holds it. -/
structure LoaderView where
  ref : JvmRef
  /-- Whether the reference has to be given back. -/
  owned : Bool
  /-- What the loader was found to be. -/
  description : Option LoaderDescription
deriving DecidableEq, Repr, Inhabited

/-- Which catalog a start uses. -/
inductive CatalogChoice where
  | fixed (catalog : Catalog)
  /-- The one that is in place when the start is made. -/
  | latest

/-- A start that waits for the JVM. -/
structure PendingStart where
  options : AgentOptions
  catalog : CatalogChoice

/-- The library and its JVM. -/
structure Library where
  jvm : Jvm
  host : Option ToolHost
  /-- Whether a class is being transformed. -/
  insideHook : Bool
  methodIds : Option MethodIds
  pendingStart : Option PendingStart
  agent : Agent
  loaderViews : Array LoaderView
  environment : Environment
  files : FileTree
  catalog : Catalog

/-- A new class file in memory of the JVM, and the length of it that the JVM is told. -/
structure NewClassFile where
  block : MemoryBlock
  length : Int32
deriving DecidableEq, Repr, Inhabited

/-- What the JVM takes for the new class file: as much of the memory as it is told. -/
def NewClassFile.octets (f : NewClassFile) : Bytes :=
  f.block.content.take f.length.toInt.toNat

/-- What the library does when a class is loaded: it may hand back a new class file. -/
abbrev LoadHook := LoadEvent → Act Library (Option NewClassFile)

namespace Library

/-- A library that was just loaded. -/
def start (jvm : Jvm) (environment : Environment) (files : FileTree) : Library where
  jvm
  host := none
  insideHook := false
  methodIds := none
  pendingStart := none
  agent := .new
  loaderViews := #[]
  environment
  files
  catalog := .empty

/-- The JVM. -/
def vm : Act Library Jvm :=
  return (← Act.world).jvm

/-- Changes the JVM. -/
def modifyVm (f : Jvm → Jvm) : Act Library Unit :=
  Act.modifyWorld fun w => { w with jvm := f w.jvm }

/-- Changes the JVM and takes a result from it. -/
def withVm {α : Type} (f : Jvm → α × Jvm) : Act Library α := do
  let (result, jvm) := f (← vm)
  modifyVm fun _ => jvm
  return result

/-- Leaves a line for a call. -/
def trace (line : String) : Act Library Unit :=
  modifyVm fun vm => vm.trace line

/-- The lines of the calls since they were taken last, the earliest first. -/
def takeCalls : Act Library (List String) := do
  let calls := (← vm).calls
  modifyVm fun vm => { vm with calls := [] }
  return calls.reverse

/-- Acts on the agent of the library. -/
def onAgent {α : Type} (a : AgentAct Library α) : Act Library α :=
  ExceptT.mk do
    let (result, agent) ← a.run (← get).world.agent
    modify fun s => { s with world := { s.world with agent } }
    return result

end Library

end AdviceWeaver

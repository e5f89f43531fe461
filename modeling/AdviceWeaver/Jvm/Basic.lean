import AdviceWeaver.Jvm.Capabilities
import AdviceWeaver.Jvm.Object

/-!
# A JVM with a script

The part of a JVM that an agent deals with: its loaded classes and its class loaders, pending
exceptions, local references, memory, and event callbacks. The loaders, and the calls that are to
fail, follow a script. Every call of the agent leaves a line in a list.

Local references and blocks of memory are numbered as they are handed out, and no number is used
twice, so that giving one back twice can be told.
-/

namespace AdviceWeaver

/-- What a function of the JVM's tool interface answers if it fails. -/
abbrev ErrorCode := Nat

namespace ErrorCode

/-- The JVM lacks the function. -/
def notAvailable : ErrorCode := 98

def illegalArgument : ErrorCode := 103

def outOfMemory : ErrorCode := 110

end ErrorCode

/-- The functions of the tool interface. -/
inductive ToolFunction where
  | addCapabilities
  | setEventCallbacks
  | setEventNotificationMode
  | allocate
  | deallocate
  | getLoadedClasses
  | getClassSignature
  | getClassLoader
  | isModifiableClass
  | getErrorName
  | addToBootstrapSearch
  | retransformClasses
deriving DecidableEq, Repr, Inhabited

namespace ToolFunction

def name : ToolFunction → String
  | .addCapabilities => "AddCapabilities"
  | .setEventCallbacks => "SetEventCallbacks"
  | .setEventNotificationMode => "SetEventNotificationMode"
  | .allocate => "Allocate"
  | .deallocate => "Deallocate"
  | .getLoadedClasses => "GetLoadedClasses"
  | .getClassSignature => "GetClassSignature"
  | .getClassLoader => "GetClassLoader"
  | .isModifiableClass => "IsModifiableClass"
  | .getErrorName => "GetErrorName"
  | .addToBootstrapSearch => "AddToBootstrapClassLoaderSearch"
  | .retransformClasses => "RetransformClasses"

def all : List ToolFunction :=
  [.addCapabilities, .setEventCallbacks, .setEventNotificationMode, .allocate, .deallocate,
   .getLoadedClasses, .getClassSignature, .getClassLoader, .isModifiableClass, .getErrorName,
   .addToBootstrapSearch, .retransformClasses]

end ToolFunction

/-- The functions of the native interface that may fail. -/
inductive NativeFunction where
  | findClass
  | getMethodId
  | callObjectMethod
  | callVoidMethod
  | newString
  | getStringChars
  | getArrayLength
  | getByteArrayRegion
deriving DecidableEq, Repr, Inhabited

/-- How a call of a function of the native interface fails. -/
inductive Fault where
  /-- It throws, if the function can. -/
  | throws
  /-- It answers null, or a negative length, and does not throw. -/
  | null
deriving DecidableEq, Repr, Inhabited

/-! ### Events -/

/-- What is called when the JVM starts or ends. -/
inductive Listener where
  /-- The agent library itself. -/
  | library
  /-- Somebody who only leaves a note. -/
  | noting (text : String)
deriving DecidableEq, Repr, Inhabited

/-- What is called for which event. -/
structure Callbacks where
  vmInit : Option Listener
  vmDeath : Option Listener
  /-- Whether the agent library is called for classes that are loaded. -/
  classFileLoad : Bool
deriving DecidableEq, Repr, Inhabited

namespace Callbacks

/-- Nothing is called. -/
def none : Callbacks := ⟨.none, .none, false⟩

/-- The size of the table of callbacks in octets. -/
def tableSize : Nat := 296

end Callbacks

namespace JvmEvent

/-- The JVM has started. -/
def vmInit : Nat := 50

/-- The JVM is about to end. -/
def vmDeath : Nat := 51

/-- A class is loaded. -/
def classFileLoad : Nat := 54

end JvmEvent

/-! ### Classes, loaders and failures -/

/-- A loaded class. -/
structure JvmClass where
  /-- The type signature, which should be UTF-8. -/
  signature : Bytes
  loader : Option Nat
  initial : Bytes
  current : Bytes
  modifiable : Bool
  /-- The code that every attempt to transform the class again ends with. -/
  failure : Option ErrorCode
deriving Repr, Inhabited

/-- A class loader. -/
structure JvmLoader where
  name : String
  /-- The binary name of its runtime type, which should be UTF-8. -/
  type : Bytes
  parent : Option Nat
  /-- Class files by internal name. -/
  classes : List (String × Bytes)
  /-- The methods that throw. -/
  throws : List String
  nullName : Bool
  nullLoad : Bool
  nullBytes : Bool
  /-- A class that is loaded while the loader looks for another one. -/
  nested : Option (String × Bytes)
deriving Repr, Inhabited

/-- The calls that fail. -/
structure JvmBehaviour where
  /-- The answer to a request for the tool interface; zero is success. -/
  getToolInterface : Int
  /-- The answer to a request for the native interface; zero is success. -/
  getNativeInterface : Int
  nullNativeInterface : Bool
  nullAllocate : Bool
  nullClasses : Bool
  noStrings : Bool
  noChars : Bool
  regionThrows : Bool
  negativeLength : Bool
  noClass : List String
  noMethod : List String
  /-- The codes that the next calls of a function of the tool interface end with. -/
  codes : ToolFunction → List ErrorCode
  /-- How the next calls of a function of the native interface fail, or that they do what the rest of the
  script has for them. -/
  faults : NativeFunction → List (Option Fault)

/-- No call fails. -/
def JvmBehaviour.regular : JvmBehaviour :=
  ⟨0, 0, false, false, false, false, false, false, false, [], [], fun _ => [], fun _ => []⟩

/-- The state of a JVM. -/
structure Jvm where
  /-- In the order of their loading. -/
  classes : Array JvmClass
  loaders : Array JvmLoader
  errorNames : List (ErrorCode × String)
  /-- The functions of the tool interface that are not there. -/
  missing : List ToolFunction
  /-- The classes that the JVM loads once an event is enabled for the first time. -/
  onEnable : List (Nat × String × Bytes)
  behaviour : JvmBehaviour
  exceptionPending : Bool
  /-- The live local references, the latest first. -/
  refs : List JvmRef
  /-- The numbers of the live blocks of memory, the latest first. -/
  blocks : List Nat
  /-- The number of references and blocks handed out so far. -/
  handedOut : Nat
  /-- How often something was given back that was not live. -/
  badReturns : Nat
  /-- How often a function of the native interface was called that must not be called while an
  exception is pending. -/
  callsWhilePending : Nat
  callbacks : Callbacks
  /-- The events that are enabled. -/
  enabled : List Nat
  /-- The calls so far, the latest first. -/
  calls : List String

namespace Jvm

/-- A JVM at its start. -/
def start (classes : Array JvmClass) (loaders : Array JvmLoader)
    (errorNames : List (ErrorCode × String)) (missing : List ToolFunction)
    (onEnable : List (Nat × String × Bytes)) (behaviour : JvmBehaviour) : Jvm where
  classes
  loaders
  errorNames
  missing
  onEnable
  behaviour
  exceptionPending := false
  refs := []
  blocks := []
  handedOut := 0
  badReturns := 0
  callsWhilePending := 0
  callbacks := .none
  enabled := []
  calls := []

def loader (vm : Jvm) (index : Nat) : JvmLoader :=
  (vm.loaders[index]?).getD default

/-- The loaded class of a number. -/
def class_ (vm : Jvm) (index : Nat) : JvmClass :=
  (vm.classes[index]?).getD default

/-- The text of an object. -/
def showObject (vm : Jvm) : JvmObject → String
  | .loadedClass index => "class " ++ Text.Utf8.decode (vm.class_ index).signature
  | .foundClass name => "class " ++ name
  | .loader index => "loader " ++ (vm.loader index).name
  | .loaderClass index => "class of loader " ++ (vm.loader index).name
  | .string octets => "string " ++ Text.Utf8.decode octets
  | .stream name _ => "stream " ++ name
  | .byteArray bytes => "array of " ++ toString bytes.length

/-- The text of what a reference refers to. -/
def show_ (vm : Jvm) : Option JvmRef → String
  | some r => vm.showObject r.object
  | none => "null"

/-- The texts of the objects with live local references, ascending. -/
def liveTexts (vm : Jvm) : List String :=
  (vm.refs.map fun r => vm.showObject r.object).mergeSort fun a b => !(b < a)

/-- The classes whose class file differs from the initial one. -/
def changed (vm : Jvm) : List JvmClass :=
  vm.classes.toList.filter fun c => c.current ≠ c.initial

/-- Leaves a line for a call. -/
def trace (vm : Jvm) (line : String) : Jvm :=
  { vm with calls := line :: vm.calls }

/-- Hands out a local reference to an object. -/
def newRef (vm : Jvm) (object : JvmObject) : JvmRef × Jvm :=
  let r : JvmRef := ⟨vm.handedOut + 1, object⟩
  (r, { vm with refs := r :: vm.refs, handedOut := vm.handedOut + 1 })

/-- Takes a local reference back. -/
def deleteRef (vm : Jvm) (r : Option JvmRef) : Jvm :=
  match r with
  | some r =>
    if r ∈ vm.refs then { vm with refs := vm.refs.erase r }
    else { vm with badReturns := vm.badReturns + 1 }
  | none => { vm with badReturns := vm.badReturns + 1 }

/-- Hands out a block of memory with some content. -/
def newBlock (vm : Jvm) (content : Bytes) : MemoryBlock × Jvm :=
  (⟨vm.handedOut + 1, content⟩,
   { vm with blocks := (vm.handedOut + 1) :: vm.blocks, handedOut := vm.handedOut + 1 })

/-- Takes a block of memory back. -/
def freeBlock (vm : Jvm) (b : MemoryBlock) : Jvm :=
  if b.number ∈ vm.blocks then { vm with blocks := vm.blocks.erase b.number }
  else { vm with badReturns := vm.badReturns + 1 }

/-- Takes the next code of a function from the script; zero is success. -/
def nextCode (vm : Jvm) (f : ToolFunction) : ErrorCode × Jvm :=
  match vm.behaviour.codes f with
  | [] => (0, vm)
  | code :: rest =>
    let codes g := if g = f then rest else vm.behaviour.codes g
    (code, { vm with behaviour := { vm.behaviour with codes } })

/-- Takes the next fault of a function of the native interface from the script. -/
def nextFault (vm : Jvm) (f : NativeFunction) : Option Fault × Jvm :=
  let faults g := if g = f then (vm.behaviour.faults f).tail else vm.behaviour.faults g
  ((vm.behaviour.faults f).headD none, { vm with behaviour := { vm.behaviour with faults } })

end Jvm

end AdviceWeaver

import AdviceWeaver.Jvm.Loading

/-!
# The tool interface of a JVM

The functions of the JVM's tool interface, as its table holds them. A function that is not in the
table is not called and counts as not available; each of the others ends with the code that the
script has for it, if any.
-/

namespace AdviceWeaver.ToolTable

open Library

/-- The answer of a function of the tool interface. -/
abbrev ToolAnswer (α : Type) := Except ErrorCode α

/-- Calls a function. A line is left for the call unless it has no text. -/
def call {α : Type} (f : ToolFunction) (text : Option String)
    (body : Act Library (ToolAnswer α)) : Act Library (ToolAnswer α) := do
  if (← vm).missing.contains f then return .error ErrorCode.notAvailable
  let code ← withVm fun vm => vm.nextCode f
  if let some text := text then
    trace (if code = 0 then text else text ++ " -> " ++ toString code)
  if code = 0 then body else return .error code

/-- The text of a call: the name of the function and its arguments, if there is anything to say of
them. -/
def line (f : ToolFunction) (arguments : String) : Option String :=
  some (if arguments = "" then f.name else f.name ++ " " ++ arguments)

def addCapabilities (cs : Capabilities) : Act Library (ToolAnswer Unit) :=
  call .addCapabilities
    (line .addCapabilities (",".intercalate (cs.toList.map Capability.name)))
    (return .ok ())

def setEventCallbacks (c : Callbacks) : Act Library (ToolAnswer Unit) :=
  let part (there : Bool) (name : String) := if there then " " ++ name else ""
  call .setEventCallbacks
    (line .setEventCallbacks (toString Callbacks.tableSize
      ++ part c.vmInit.isSome "VMInit" ++ part c.vmDeath.isSome "VMDeath"
      ++ part c.classFileLoad "ClassFileLoadHook"))
    do
      modifyVm fun vm => { vm with callbacks := c }
      return .ok ()

/-- Loads the classes that the script has for an event; it does so once. -/
def loadOnEnable (hook : LoadHook) (event : Nat) : Act Library Unit := do
  let scripted := (← vm).onEnable.filter fun (e, _) => e = event
  modifyVm fun vm => { vm with onEnable := vm.onEnable.filter fun (e, _) => e ≠ event }
  scripted.forM fun (_, name, bytes) => ClassLoading.loadScripted hook "load" none name bytes

def setEventNotificationMode (hook : LoadHook) (enable : Bool) (event : Nat) :
    Act Library (ToolAnswer Unit) :=
  call .setEventNotificationMode
    (line .setEventNotificationMode
      ((if enable then "1 " else "0 ") ++ toString event))
    do
      modifyVm fun vm =>
        let others := vm.enabled.filter (· ≠ event)
        { vm with enabled := if enable then event :: others else others }
      if enable then loadOnEnable hook event
      return .ok ()

/-- A block of memory of some size, which the caller fills. -/
def allocate (size : Int) (content : Bytes) : Act Library (ToolAnswer (Option MemoryBlock)) :=
  call .allocate (line .allocate (toString size)) do
    if (← vm).behaviour.nullAllocate then return .ok none
    return .ok (some (← withVm fun vm => vm.newBlock content))

def deallocate (block : MemoryBlock) : Act Library (ToolAnswer Unit) :=
  call .deallocate none do
    modifyVm fun vm => vm.freeBlock block
    return .ok ()

/-- References to all loaded classes, and the block of memory in which they come. -/
def getLoadedClasses : Act Library (ToolAnswer (Option (List JvmRef × MemoryBlock))) :=
  call .getLoadedClasses (line .getLoadedClasses "") do
    if (← vm).behaviour.nullClasses then return .ok none
    let refs ← (List.range (← vm).classes.size).mapM fun index =>
      withVm fun vm => vm.newRef (.loadedClass index)
    return .ok (some (refs, ← withVm fun vm => vm.newBlock []))

/-- The loaded class behind a reference. -/
def classOf (r : JvmRef) : Act Library JvmClass := do
  match r.object with
  | .loadedClass index => return (← vm).class_ index
  | _ => return default

/-- The text of a call that is about one class. -/
def classLine (f : ToolFunction) (r : JvmRef) : Act Library (Option String) :=
  return line f ((← vm).show_ (some r))

def getClassSignature (r : JvmRef) : Act Library (ToolAnswer MemoryBlock) := do
  call .getClassSignature (← classLine .getClassSignature r) do
    let c ← classOf r
    return .ok (← withVm fun vm => vm.newBlock c.signature)

/-- The loader of a class; null for the bootstrap loader. -/
def getClassLoader (r : JvmRef) : Act Library (ToolAnswer (Option JvmRef)) := do
  call .getClassLoader (← classLine .getClassLoader r) do
    match (← classOf r).loader with
    | none => return .ok none
    | some index => return .ok (some (← withVm fun vm => vm.newRef (.loader index)))

def isModifiableClass (r : JvmRef) : Act Library (ToolAnswer Bool) := do
  call .isModifiableClass (← classLine .isModifiableClass r)
    (return .ok (← classOf r).modifiable)

def getErrorName (code : ErrorCode) : Act Library (ToolAnswer MemoryBlock) :=
  call .getErrorName (line .getErrorName (toString code)) do
    match (← vm).errorNames.lookup code with
    | none => return .error ErrorCode.illegalArgument
    | some name => return .ok (← withVm fun vm => vm.newBlock (Text.Utf8.encode name))

def addToBootstrapSearch (segment : String) : Act Library (ToolAnswer Unit) :=
  call .addToBootstrapSearch (line .addToBootstrapSearch segment) (return .ok ())

/-- Transforms classes again until one fails. -/
def retransformEach (hook : LoadHook) : List JvmRef → Act Library (ToolAnswer Unit)
  | [] => return .ok ()
  | r :: rest => do
    match (← classOf r).failure, r.object with
    | some code, _ => return .error code
    | none, .loadedClass index => do
      ClassLoading.retransformClass hook index
      retransformEach hook rest
    | none, _ => retransformEach hook rest

def retransformClasses (hook : LoadHook) (refs : List JvmRef) : Act Library (ToolAnswer Unit) := do
  let jvm ← vm
  let names := ",".intercalate (refs.map fun r => jvm.show_ (some r))
  call .retransformClasses (line .retransformClasses names) (retransformEach hook refs)

end AdviceWeaver.ToolTable

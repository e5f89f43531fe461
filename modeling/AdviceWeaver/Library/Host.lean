import AdviceWeaver.Jvm.ToolInterface
import AdviceWeaver.Library.Loader

/-!
# The host over the tool interface

The JVM calls the library for every class that is loaded or transformed again. The library passes
the class through all registered transformers and hands the outcome back in memory of the JVM; if
any of them panics, the class stays as it is. Classes whose loading is triggered by that work are
left alone.

There is one host for the process. It is set up once; later attempts find the first one.
-/

namespace AdviceWeaver.JvmHost

open Library NativeInterface

/-! ### Classes that are loaded -/

/-- The request for a class; it has no name if the JVM's name is no well-formed text. -/
def requestOf (e : LoadEvent) (bytes : Bytes) (loader : Option LoaderId) : TransformRequest where
  className := e.name.bind fun name => Text.Utf8.decode? (name.takeWhile (· ≠ 0))
  loader
  redefining := e.redefining
  bytes := bytes.take e.length.toNat

/-- Passes a class through the transformers of a host. -/
def transformClass (nested : LoadHook) (host : ToolHost) (e : LoadEvent) :
    Act Library (Option Bytes) := do
  match host.transformers, e.bytes with
  | [], _ => return none
  | _, none => return none
  | transformers, some bytes =>
    let loader ← match e.loader with
      | none => pure none
      | some index => some <$> LoaderAccess.new (.lent (.loader index)) false
    Transformer.transformAll (LoaderAccess.ops nested) (requestOf e bytes loader) transformers

/-- Copies a new class file into memory of the JVM. The JVM is told the low 32 bits of its length. -/
def handBack (bytes : Bytes) : Act Library (Option NewClassFile) := do
  match ← ToolInterface.allocateCopy bytes with
  | .ok block => return some ⟨block, Int32.ofNat bytes.length⟩
  | .error code =>
    Act.whenKept .warn do
      let error ← ToolInterface.describeError code
      Act.log .warn "cannot hand transformed class back to the JVM" [("error", error)]
    return none

/-- Transforms a class and hands the outcome back. -/
def processClass (nested : LoadHook) (host : ToolHost) (e : LoadEvent) :
    Act Library (Option NewClassFile) := do
  match ← Act.attempt (transformClass nested host e) with
  | .ok none => return none
  | .ok (some bytes) => handBack bytes
  | .error _ =>
    Act.log .warn "class file transformer panicked, class left untouched" []
    return none

/-- Says whether a class is being transformed. -/
def setInsideHook (value : Bool) : Act Library Unit :=
  Act.modifyWorld fun w => { w with insideHook := value }

/-- What the library does when a class is loaded, given how often loading may nest. A class that is
loaded while another one is transformed is left alone. -/
def loadHook : Nat → LoadHook
  | 0, _ => return none
  | depth + 1, e => do
    let w ← Act.world
    match w.host with
    | none => return none
    | some host =>
      if w.insideHook then return none
      setInsideHook true
      let out ← processClass (loadHook depth) host e
      setInsideHook false
      return out

/-- What the library does when a class is loaded. A class that is loaded meanwhile is one level
further down, where nothing is done. -/
def hook : LoadHook :=
  loadHook 2

/-- How the class loaders of the JVM are asked. -/
def loaderOps : LoaderOps Library :=
  LoaderAccess.ops hook

/-! ### Setting the host up -/

/-- A failure of the tool interface as an error of the host. -/
def failure {α : Type} (code : ErrorCode) : Act Library (Except HostError α) := do
  return .error (.toolInterface (← ToolInterface.describeError code))

/-- The answer of the tool interface as one of the host. -/
def orFail {α : Type} (answer : ToolTable.ToolAnswer α) : Act Library (Except HostError α) :=
  match answer with
  | .ok a => return .ok a
  | .error code => failure code

/-- The rights that only loading classes takes. -/
def loadCapabilities : Capabilities :=
  Capabilities.empty.set .allClassHookEvents true

/-- The rights that transforming classes again takes. -/
def fullCapabilities : Capabilities :=
  (loadCapabilities.set .retransformClasses true).set .retransformAnyClass true

/-- Asks for all rights, or else for those that loading takes, and says whether classes can be
transformed again. -/
def acquire : Act Library (Except HostError Bool) := do
  match ← ToolTable.addCapabilities fullCapabilities with
  | .ok () => return .ok true
  | .error code =>
    Act.whenKept .warn do
      let error ← ToolInterface.describeError code
      Act.log .warn "retransformation capabilities unavailable" [("error", error)]
    match ← ToolTable.addCapabilities loadCapabilities with
    | .ok () => return .ok false
    | .error code => failure code

/-- Asks to be called when classes are loaded, and for the other events of the JVM's life. -/
def subscribe (vmInit vmDeath : Option Listener) : Act Library (Except HostError Unit) := do
  match ← ToolTable.setEventCallbacks ⟨vmInit, vmDeath, true⟩ with
  | .error code => failure code
  | .ok () =>
    orFail (← ToolTable.setEventNotificationMode hook true JvmEvent.classFileLoad)

/-- Sets the host up unless there is one. -/
def install (vmInit vmDeath : Option Listener) : Act Library (Except HostError Unit) := do
  if (← Act.world).host.isSome then return .ok ()
  match ← ToolInterface.connect with
  | .error answer => return .error (.toolInterface ("GetEnv failed with " ++ toString answer))
  | .ok () =>
    match ← acquire with
    | .error e => return .error e
    | .ok supportsRetransform =>
      match ← subscribe vmInit vmDeath with
      | .error e => return .error e
      | .ok () =>
        Act.modifyWorld fun w => { w with host := some ⟨supportsRetransform, []⟩ }
        return .ok ()

/-- Makes the classes of an archive visible to all loaders. A path has to be a text. -/
def addToBootstrapSearch (jar : Bytes) : Act Library (Except HostError Unit) := do
  match Text.Utf8.decode? jar with
  | none => return .error (.toolInterface (Text.Utf8.decode jar ++ " is not valid UTF-8"))
  | some segment => orFail (← ToolInterface.addToBootstrapSearch segment)

/-! ### Loaded classes -/

/-- The binary name in a type signature; arrays and primitive types have none. -/
def nameOfSignature (signature : String) : Option String :=
  match signature.toList with
  | 'L' :: rest =>
    if rest.getLast? = some ';' then some (binaryName (String.ofList rest.dropLast)) else none
  | _ => none

/-- The loader of a class. -/
def describeLoaderOf (r : JvmRef) (name : String) : Act Library LoaderDescription := do
  match ← ToolTable.getClassLoader r with
  | .ok none => return .bootstrap
  | .ok (some loader) => using_ (some loader) (LoaderAccess.describe hook loader)
  | .error code =>
    Act.whenKept .debug do
      let error ← ToolInterface.describeError code
      Act.log .debug "cannot get class loader" [("type_name", name), ("error", error)]
    return .bootstrap

/-- A loaded class as the host shows it. The reference to what is no class is given back. -/
def describeClass (r : JvmRef) : Act Library (Option LoadedClass) := do
  match ((← ToolInterface.getClassSignature r).toOption).bind nameOfSignature with
  | none =>
    NativeTable.deleteLocalRef (some r)
    return none
  | some name =>
    let modifiable := ((← ToolTable.isModifiableClass r).toOption).getD false
    let loader ← describeLoaderOf r name
    return some { name, loader, modifiable, handle := r.number }

/-- The loaded classes of the JVM, without arrays and primitive types. -/
def loadedClasses : Act Library (Except HostError (List LoadedClass)) := do
  if !(← isAttached) then
    return .error (.toolInterface "current thread is not attached to the JVM")
  match ← ToolInterface.getLoadedClasses with
  | .error code => failure code
  | .ok refs => return .ok (← refs.filterMapM describeClass)

/-- Transforms classes again. -/
def retransform (classes : List LoadedClass) : Act Library (Except HostError Unit) := do
  let live := (← vm).refs
  let refs := classes.filterMap fun c => live.find? fun r => r.number = c.handle
  match ← ToolInterface.retransformClasses hook refs with
  | .ok () => return .ok ()
  | .error code =>
    let reason ← ToolInterface.describeError code
    let what := match classes with
      | [c] => c.name
      | _ => toString classes.length ++ " classes"
    return .error (.retransform what reason)

/-- Changes the transformers of the host. -/
def modifyTransformers (f : List Transformer → List Transformer) : Act Library Unit :=
  Act.modifyWorld fun w => { w with
    host := w.host.map fun h => { h with transformers := f h.transformers } }

/-- How the host is called. There is one host, whatever its number. -/
def hostOps : HostOps Library where
  addTransformer _ t := modifyTransformers fun all => all ++ [t]
  removeTransformer _ t := do
    let all := ((← Act.world).host.map ToolHost.transformers).getD []
    let (kept, found) := t.remove all
    modifyTransformers fun _ => kept
    return found
  supportsRetransform _ :=
    return ((← Act.world).host.map ToolHost.supportsRetransform).getD false
  loadedClasses _ := loadedClasses
  retransform _ := retransform

end AdviceWeaver.JvmHost

import AdviceWeaver.Jvm.NativeInterface

/-!
# Class loaders through the native interface

How the library asks a class loader of the JVM for its type, its parent, its classes and its class
files. The methods that this takes are looked up once for the process; a JVM may lack some of them.
A loader that was obtained as a parent is the library's to give back.
-/

namespace AdviceWeaver.LoaderAccess

open Library NativeInterface

/-! ### Methods -/

/-- Looks the methods up in their classes. -/
def lookUpMethods (classClass loaderClass streamClass : Option JvmRef) : Act Library MethodIds := do
  let getName ← getMethodId classClass "getName" "()Ljava/lang/String;"
  let getParent ← getMethodId loaderClass "getParent" "()Ljava/lang/ClassLoader;"
  let loadClass ← getMethodId loaderClass "loadClass" "(Ljava/lang/String;)Ljava/lang/Class;"
  let getResourceAsStream ←
    getMethodId loaderClass "getResourceAsStream" "(Ljava/lang/String;)Ljava/io/InputStream;"
  let readAllBytes ← getMethodId streamClass "readAllBytes" "()[B"
  let close ← getMethodId streamClass "close" "()V"
  return { getName, getParent, loadClass, getResourceAsStream, readAllBytes, close }

/-- Finds a class and uses it; nothing comes of it if the class is not there. -/
def withClass {α : Type} (name : String) (use : Option JvmRef → Act Library (Option α)) :
    Act Library (Option α) := do
  match ← findClass name with
  | none => return none
  | some c => using_ (some c) (use (some c))

/-- The methods of class loaders, if the classes that declare them are there. -/
def methodIds : Act Library (Option MethodIds) := do
  if let some ids := (← Act.world).methodIds then return some ids
  let found ←
    withClass "java/lang/Class" fun classClass =>
      withClass "java/lang/ClassLoader" fun loaderClass =>
        withClass "java/io/InputStream" fun streamClass =>
          return some (← lookUpMethods classClass loaderClass streamClass)
  if found.isSome then Act.modifyWorld fun w => { w with methodIds := found }
  return found

/-- The methods of class loaders. -/
def requireMethods : Act Library (Except LoaderError MethodIds) := do
  match ← methodIds with
  | some ids => return .ok ids
  | none => return .error (.other "java.lang.ClassLoader methods not found")

/-- Calls a method that may be missing, under the name that errors show. -/
def callMethod (hook : LoadHook) (o : Option JvmRef) (m : Option MethodId) (name : String)
    (arg : Option JvmRef) : Act Library (Except LoaderError (Option JvmRef)) := do
  match m with
  | none => return .error (.other (name ++ " is not available"))
  | some m =>
    let result ← NativeTable.callObjectMethod hook o m arg
    if ← takeException then return .error (.exception name) else return .ok result

/-! ### Descriptions -/

/-- What is shown of a loader whose type cannot be found out. -/
def unknown : LoaderDescription :=
  ⟨some "java.lang.ClassLoader", some "unknown class loader"⟩

/-- What a loader is. -/
def describe (hook : LoadHook) (loader : JvmRef) : Act Library LoaderDescription := do
  match (← methodIds).bind MethodIds.getName with
  | none => return unknown
  | some getName =>
    let c ← NativeTable.getObjectClass (some loader)
    using_ c do
      let name ← NativeTable.callObjectMethod hook c getName none
      using_ name do
        if ← takeException then return unknown
        match ← getText name with
        | some text => return .of text
        | none => return unknown

/-! ### Views -/

/-- A new view of a loader. -/
def new (ref : JvmRef) (owned : Bool) : Act Library LoaderId := do
  let w ← Act.world
  Act.modifyWorld fun w => { w with loaderViews := w.loaderViews.push ⟨ref, owned, none⟩ }
  return w.loaderViews.size

/-- The reference of a view. -/
def ref (l : LoaderId) : Act Library JvmRef :=
  return (((← Act.world).loaderViews[l]?).getD default).ref

/-- What the loader is; it is asked once for each view. -/
def description (hook : LoadHook) (l : LoaderId) : Act Library LoaderDescription := do
  match ((← Act.world).loaderViews[l]?).bind LoaderView.description with
  | some found => return found
  | none =>
    let found ← describe hook (← ref l)
    Act.modifyWorld fun w => { w with
      loaderViews := w.loaderViews.modify l fun v => { v with description := some found } }
    return found

/-- The parent of a loader. -/
def parent (hook : LoadHook) (l : LoaderId) :
    Act Library (Except LoaderError (Option LoaderId)) := do
  match ← requireMethods with
  | .error e => return .error e
  | .ok ids =>
    match ← callMethod hook (some (← ref l)) ids.getParent "getParent" none with
    | .error e => return .error e
    | .ok none => return .ok none
    | .ok (some above) => return .ok (some (← new above true))

/-- Makes a string of the JVM and uses it; `shown` is what an error shows of it. -/
def withString {α : Type} (text shown : String)
    (use : Option JvmRef → Act Library (Except LoaderError α)) :
    Act Library (Except LoaderError α) := do
  match ← newString text with
  | none => return .error (.other ("cannot create string " ++ shown))
  | some s => using_ (some s) (use (some s))

/-- Whether a loader can load the class of a binary name. A loader that throws cannot. -/
def canLoad (hook : LoadHook) (l : LoaderId) (name : String) :
    Act Library (Except LoaderError Bool) := do
  match ← requireMethods with
  | .error e => return .error e
  | .ok ids =>
    withString name name fun arg => do
      match ← callMethod hook (some (← ref l)) ids.loadClass "loadClass" arg with
      | .ok c =>
        drop c
        return .ok c.isSome
      | .error (.exception _) => return .ok false
      | .error e => return .error e

/-- Reads a stream to its end. -/
def readStream (hook : LoadHook) (ids : MethodIds) (stream : JvmRef) :
    Act Library (Except LoaderError (Option Bytes)) := do
  match ← callMethod hook (some stream) ids.readAllBytes "readAllBytes" none with
  | .error e => return .error e
  | .ok array => using_ array (return .ok (← getBytes array))

/-- Closes a stream; it does not matter whether that throws. -/
def closeStream (ids : MethodIds) (stream : JvmRef) : Act Library Unit := do
  if let some close := ids.close then
    NativeTable.callVoidMethod (some stream) close
    let _ ← takeException

/-- The class file of an internal name that a loader sees. -/
def classFile (hook : LoadHook) (l : LoaderId) (name : String) :
    Act Library (Except LoaderError (Option Bytes)) := do
  match ← requireMethods with
  | .error e => return .error e
  | .ok ids =>
    withString (name ++ ".class") name fun arg => do
      let loader ← ref l
      match ← callMethod hook (some loader) ids.getResourceAsStream "getResourceAsStream" arg with
      | .error e => return .error e
      | .ok none => return .ok none
      | .ok (some stream) =>
        using_ (some stream) do
          let bytes ← readStream hook ids stream
          closeStream ids stream
          return bytes

/-- Gives up a view. -/
def release (l : LoaderId) : Act Library Unit := do
  if let some v := (← Act.world).loaderViews[l]? then
    if v.owned then drop (some v.ref)

/-- The number of class files that the loader of a view sees. -/
def extent (w : Library) (l : LoaderId) : Nat :=
  match w.loaderViews[l]? with
  | some ⟨⟨_, .loader index⟩, _, _⟩ => (w.jvm.loader index).classes.length
  | _ => 0

/-- How the class loaders of the JVM are asked. -/
def ops (hook : LoadHook) : LoaderOps Library where
  describe := description hook
  parent := parent hook
  canLoad := canLoad hook
  classFile := classFile hook
  release := release
  load := ClassLoading.load hook
  extent := extent

end AdviceWeaver.LoaderAccess

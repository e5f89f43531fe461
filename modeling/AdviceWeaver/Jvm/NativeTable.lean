import AdviceWeaver.Jvm.Loading

/-!
# The native interface of a JVM

The functions of the JVM's native interface, as its table holds them. A function that throws leaves
an exception pending and answers null. While an exception is pending only a few functions may be
called; calls of others are counted, but answer as always.
-/

namespace AdviceWeaver.NativeTable

open Library

/-- Begins a call of a function that must not be called while an exception is pending. A line is
left for the call unless it has no text. -/
def begin_ (text : Option String) : Act Library Unit := do
  if (← vm).exceptionPending then
    modifyVm fun vm => { vm with callsWhilePending := vm.callsWhilePending + 1 }
  if let some text := text then trace text

/-- Throws: the result is null. -/
def throw_ : Act Library (Option JvmRef) := do
  modifyVm fun vm => { vm with exceptionPending := true }
  return none

/-- Does what a function does, or fails where the script has it: then the function throws or does not, and
answers `nothing`. -/
def mayFail {α : Type} (f : NativeFunction) (nothing : α) (body : Act Library α) : Act Library α := do
  match ← withVm fun vm => vm.nextFault f with
  | none => body
  | some .null => return nothing
  | some .throws =>
    let _ ← throw_
    return nothing

/-- Does what a function does that never throws, or answers `nothing` where the script has it. -/
def mayBeNull {α : Type} (f : NativeFunction) (nothing : α) (body : Act Library α) : Act Library α := do
  match ← withVm fun vm => vm.nextFault f with
  | none => body
  | some _ => return nothing

/-- Answers a new local reference to an object. -/
def answer (object : JvmObject) : Act Library (Option JvmRef) := do
  return some (← withVm fun vm => vm.newRef object)

/-! ### Classes and methods -/

def findClass (name : String) : Act Library (Option JvmRef) := do
  begin_ (some ("FindClass " ++ name))
  mayFail .findClass none do
    if (← vm).behaviour.noClass.contains name then throw_ else answer (.foundClass name)

/-- The class of an object. -/
def classOfObject : Option JvmRef → JvmObject
  | some ⟨_, .loader index⟩ => .loaderClass index
  | some ⟨_, .string _⟩ => .foundClass "java/lang/String"
  | some ⟨_, .stream _ _⟩ => .foundClass "java/io/InputStream"
  | some ⟨_, .byteArray _⟩ => .foundClass "[B"
  | _ => .foundClass "java/lang/Class"

def getObjectClass (o : Option JvmRef) : Act Library (Option JvmRef) := do
  begin_ (some ("GetObjectClass " ++ (← vm).show_ o))
  answer (classOfObject o)

/-- The identity of a method of a class; null if it throws. -/
def getMethodId (c : Option JvmRef) (name signature : String) :
    Act Library (Option MethodId) := do
  begin_ (some ("GetMethodID " ++ (← vm).show_ c ++ " " ++ name ++ signature))
  mayFail .getMethodId none do
    if (← vm).behaviour.noMethod.contains name then
      let _ ← throw_
      return none
    else return some ⟨name⟩

/-! ### Calling methods -/

/-- The methods that take an argument. -/
def takesArgument (m : MethodId) : Bool :=
  m.name = "loadClass" || m.name = "getResourceAsStream"

/-- The text of a string; other objects have none. -/
def textOf : Option JvmRef → Option String
  | some ⟨_, .string octets⟩ => some (Text.Utf8.decode octets)
  | _ => none

/-- The class file of a loader that a resource of this name holds, by the name of the class. -/
def resource? (l : JvmLoader) (resource : String) : Option String :=
  let name := resource.toList.take (resource.length - ".class".length)
  if Text.endsWith resource ".class" && (l.classes.lookup (String.ofList name)).isSome then
    some (String.ofList name)
  else none

/-- Calls a method of a loader. -/
def callLoader (index : Nat) (l : JvmLoader) (m : MethodId) (arg : Option JvmRef) :
    Act Library (Option JvmRef) := do
  if l.throws.contains m.name then throw_
  else if m.name = "getParent" then
    match l.parent with
    | some parent => answer (.loader parent)
    | none => return none
  else if m.name = "loadClass" then
    let name := (textOf arg).map internalName
    match name.filter fun n => (l.classes.lookup n).isSome with
    | some name => answer (.foundClass name)
    | none => if l.nullLoad then return none else throw_
  else if m.name = "getResourceAsStream" then
    match (textOf arg).bind (resource? l) with
    | some name => answer (.stream name index)
    | none => return none
  else throw_

/-- Calls a method that answers an object. The class that a loader's script has is loaded first when
the loader is asked for a class or a resource. -/
def callObjectMethod (hook : LoadHook) (o : Option JvmRef) (m : MethodId)
    (arg : Option JvmRef) : Act Library (Option JvmRef) := do
  let jvm ← vm
  begin_ (some ("CallObjectMethodA " ++ jvm.show_ o ++ " " ++ m.name
    ++ (if takesArgument m then " " ++ jvm.show_ arg else "")))
  match o with
  | some ⟨_, .loaderClass index⟩ =>
    let l := jvm.loader index
    mayFail .callObjectMethod none do
      if m.name ≠ "getName" ∨ l.throws.contains m.name then throw_
      else if l.nullName then return none
      else answer (.string l.type)
  | some ⟨_, .loader index⟩ =>
    let l := jvm.loader index
    if takesArgument m then
      if let some (name, bytes) := l.nested then
        ClassLoading.loadScripted hook "nested load" (some index) name bytes
    mayFail .callObjectMethod none (callLoader index l m arg)
  | some ⟨_, .stream name index⟩ =>
    let l := jvm.loader index
    mayFail .callObjectMethod none do
      if m.name ≠ "readAllBytes" ∨ l.throws.contains m.name then throw_
      else if l.nullBytes then return none
      else answer (.byteArray ((l.classes.lookup name).getD []))
  | _ => throw_

/-- Calls a method that answers nothing. -/
def callVoidMethod (o : Option JvmRef) (m : MethodId) : Act Library Unit := do
  let jvm ← vm
  begin_ (some ("CallVoidMethodA " ++ jvm.show_ o ++ " " ++ m.name))
  mayFail .callVoidMethod () do
    match o with
    | some ⟨_, .stream _ index⟩ =>
      if (jvm.loader index).throws.contains m.name then
        let _ ← throw_
    | _ => return ()

/-! ### Exceptions -/

def exceptionCheck : Act Library Bool :=
  return (← vm).exceptionPending

def exceptionClear : Act Library Unit := do
  trace "ExceptionClear"
  modifyVm fun vm => { vm with exceptionPending := false }

/-! ### Strings and arrays -/

def newString (text : String) : Act Library (Option JvmRef) := do
  begin_ (some ("NewStringUTF " ++ text))
  mayFail .newString none do
    if (← vm).behaviour.noStrings then throw_ else answer (.string (Text.Utf8.encode text))

/-- The characters of a string in a block of memory; null if there are none. -/
def getStringChars (o : Option JvmRef) : Act Library (Option MemoryBlock) := do
  begin_ (some ("GetStringUTFChars " ++ (← vm).show_ o))
  mayBeNull .getStringChars none do
    match o with
    | some ⟨_, .string octets⟩ =>
      if (← vm).behaviour.noChars then return none
      return some (← withVm fun vm => vm.newBlock octets)
    | _ => return none

def releaseStringChars (block : MemoryBlock) : Act Library Unit := do
  begin_ none
  modifyVm fun vm => vm.freeBlock block

def getArrayLength (o : Option JvmRef) : Act Library Int := do
  begin_ none
  mayBeNull .getArrayLength (-1) do
    if (← vm).behaviour.negativeLength then return -1
    match o with
    | some ⟨_, .byteArray bytes⟩ => return bytes.length
    | _ => return 0

/-- Part of the octets of an array. -/
def getByteArrayRegion (o : Option JvmRef) (start length : Int) : Act Library Bytes := do
  let jvm ← vm
  begin_ (some ("GetByteArrayRegion " ++ jvm.show_ o ++ " " ++ toString start ++ " "
    ++ toString length))
  mayFail .getByteArrayRegion [] do
    match o with
    | some ⟨_, .byteArray bytes⟩ =>
      if jvm.behaviour.regionThrows ∨ start < 0 ∨ length < 0 ∨ bytes.length < start + length then
        let _ ← throw_
        return []
      else return (bytes.drop start.toNat).take length.toNat
    | _ => do
      let _ ← throw_
      return []

/-! ### References -/

def deleteLocalRef (o : Option JvmRef) : Act Library Unit :=
  modifyVm fun vm => vm.deleteRef o

end AdviceWeaver.NativeTable

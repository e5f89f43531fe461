import AdviceWeaver.Jvm.NativeTable

/-!
# Using the native interface

The functions of the native interface as the agent library uses them. A call that may throw clears
its exception before anything else is called, and a local reference is given back as soon as it is
no longer needed.
-/

namespace AdviceWeaver.NativeInterface

open Library

/-- The version of the native interface that is asked for. -/
def version : Nat := 0x10006

/-- Whether the current thread has a native interface. -/
def isAttached : Act Library Bool := do
  trace ("GetEnv jni " ++ Text.hex 1 version)
  let behaviour := (← vm).behaviour
  return behaviour.getNativeInterface = 0 && !behaviour.nullNativeInterface

/-- Whether a text can be passed to the JVM: a zero character would end it. -/
def canPass (text : String) : Bool :=
  !text.toList.contains '\x00'

/-- Clears the pending exception and says whether there was one. -/
def takeException : Act Library Bool := do
  if ← NativeTable.exceptionCheck then
    NativeTable.exceptionClear
    return true
  else return false

/-- An answer of the JVM; if it is null, the exception behind it is cleared. -/
def orClear {α : Type} (answer : Option α) : Act Library (Option α) := do
  if answer.isNone then
    let _ ← takeException
  return answer

/-- The class of an internal name. -/
def findClass (name : String) : Act Library (Option JvmRef) := do
  if canPass name then orClear (← NativeTable.findClass name) else return none

/-- The identity of a method of a class. -/
def getMethodId (c : Option JvmRef) (name signature : String) :
    Act Library (Option MethodId) := do
  if canPass name && canPass signature then
    orClear (← NativeTable.getMethodId c name signature)
  else return none

/-- A string of the JVM. -/
def newString (text : String) : Act Library (Option JvmRef) := do
  if canPass text then orClear (← NativeTable.newString text) else return none

/-- The text of a string of the JVM. -/
def getText (o : Option JvmRef) : Act Library (Option String) := do
  if o.isNone then return none
  match ← NativeTable.getStringChars o with
  | none => return none
  | some block =>
    NativeTable.releaseStringChars block
    return some block.text

/-- The octets of an array. -/
def getBytes (o : Option JvmRef) : Act Library (Option Bytes) := do
  if o.isNone then return none
  let length ← NativeTable.getArrayLength o
  let bytes ← NativeTable.getByteArrayRegion o 0 length
  if ← takeException then return none else return some bytes

/-- Gives a local reference back, unless it is null. -/
def drop (o : Option JvmRef) : Act Library Unit :=
  if o.isSome then NativeTable.deleteLocalRef o else return ()

/-- Uses a local reference and gives it back. -/
def using_ {α : Type} (o : Option JvmRef) (use : Act Library α) : Act Library α := do
  let result ← use
  drop o
  return result

end AdviceWeaver.NativeInterface

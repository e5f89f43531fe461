import AdviceWeaver.Library.Basic

/-!
# Loading classes

A JVM that loads a class, or transforms one again, calls the agent library first if that asked for
it, and takes the class file that the library hands back instead of the initial one. The memory in
which it comes is the JVM's to free.
-/

namespace AdviceWeaver.ClassLoading

open Library

/-- Calls the library for a class, if that listens. -/
def fireLoad (hook : LoadHook) (e : LoadEvent) : Act Library (Option Bytes) := do
  let jvm ← vm
  if jvm.callbacks.classFileLoad && jvm.enabled.contains JvmEvent.classFileLoad then
    match ← hook e with
    | none => return none
    | some f =>
      modifyVm fun vm => vm.freeBlock f.block
      return some f.octets
  else return none

/-- The signature of a class of an internal name. -/
def signatureOf (name : Option Bytes) : Bytes :=
  let name := name.getD (Text.Utf8.encode "anonymous")
  76 :: name ++ [59]

/-- Loads a class; the result is its class file if the library changed it. -/
def loadClass (hook : LoadHook) (name : Option Bytes) (loader : Option Nat)
    (bytes : Option Bytes) (length : Int) : Act Library (Option Bytes) := do
  let woven ← fireLoad hook ⟨false, loader, name, bytes, length⟩
  let initial := bytes.getD []
  let c : JvmClass := ⟨signatureOf name, loader, initial, woven.getD initial, true, none⟩
  modifyVm fun vm => { vm with classes := vm.classes.push c }
  return woven

/-- Loads a class, or has the library look at one again that was loaded before. -/
def load (hook : LoadHook) (e : LoadEvent) : Act Library (Option Bytes) :=
  if e.redefining then fireLoad hook e else loadClass hook e.name e.loader e.bytes e.length

/-- Loads a class that the script asks for, and leaves a line on what came of it. -/
def loadScripted (hook : LoadHook) (label : String) (loader : Option Nat) (name : String)
    (bytes : Bytes) : Act Library Unit := do
  let woven ← loadClass hook (some (Text.Utf8.encode name)) loader (some bytes) bytes.length
  let outcome := if woven.isSome then "rewritten" else "untouched"
  trace (label ++ " of " ++ name ++ ": " ++ outcome)

/-- Transforms a loaded class again, starting from its initial class file. -/
def retransformClass (hook : LoadHook) (index : Nat) : Act Library Unit := do
  let c := (← vm).class_ index
  let name := (c.signature.drop 1).dropLast
  let woven ← fireLoad hook ⟨true, c.loader, some name, some c.initial, c.initial.length⟩
  let current := woven.getD c.initial
  modifyVm fun vm =>
    { vm with classes := vm.classes.modify index fun c => { c with current } }

end AdviceWeaver.ClassLoading

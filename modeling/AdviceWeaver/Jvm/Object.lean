import AdviceWeaver.Text.Utf8

/-!
# Objects of a JVM

The objects that an agent meets when it asks a JVM about classes and class loaders, and the
references by which it holds them. A null reference is a missing one. Local references are handed
out by the JVM and have to be given back; each has a number of its own. Other references, such as
those that the JVM passes to a callback, are not the agent's to give back.
-/

namespace AdviceWeaver

/-- An object. Classes and class loaders of the JVM are known by their number. -/
inductive JvmObject where
  /-- A class that the JVM has loaded. -/
  | loadedClass (index : Nat)
  /-- A class found by its internal name. -/
  | foundClass (name : String)
  | loader (index : Nat)
  /-- The runtime type of a class loader. -/
  | loaderClass (index : Nat)
  /-- A string by its octets, which should be UTF-8. -/
  | string (octets : Bytes)
  /-- An open stream of the class file of a name, from a class loader. -/
  | stream (name : String) (loader : Nat)
  | byteArray (bytes : Bytes)
deriving DecidableEq, Repr, Inhabited

/-- A reference to an object; number zero marks a reference that is no local one. -/
structure JvmRef where
  number : Nat
  object : JvmObject
deriving DecidableEq, Repr, Inhabited

/-- A reference that the agent was given to look at. -/
def JvmRef.lent (object : JvmObject) : JvmRef := ⟨0, object⟩

/-- A method of objects, as the JVM identifies it. -/
structure MethodId where
  name : String
deriving DecidableEq, Repr, Inhabited

/-- Memory that belongs to the JVM, and what is in it. -/
structure MemoryBlock where
  number : Nat
  content : Bytes
deriving DecidableEq, Repr, Inhabited

/-- The text in front of the first zero octet. -/
def MemoryBlock.text (b : MemoryBlock) : String :=
  Text.Utf8.decode (b.content.takeWhile (· ≠ 0))

end AdviceWeaver

import AdviceWeaver.Jvm.ToolTable

/-!
# Using the tool interface

The functions of the tool interface as the agent library uses them: memory that the JVM hands out is
read and given back, and texts are texts.
-/

namespace AdviceWeaver.ToolInterface

open Library ToolTable

/-- The version of the tool interface that is asked for. -/
def version : Nat := 0x30010200

/-- Asks the JVM for its tool interface; a failure is the JVM's answer. -/
def connect : Act Library (Except Int Unit) := do
  trace ("GetEnv jvmti " ++ Text.hex 1 version)
  let answer := (← vm).behaviour.getToolInterface
  return if answer = 0 then .ok () else .error answer

/-- Gives memory back; there is nothing to do for a null block. -/
def deallocate (block : Option MemoryBlock) : Act Library (ToolAnswer Unit) :=
  match block with
  | none => return .ok ()
  | some block => ToolTable.deallocate block

/-- A copy of a byte string in memory of the JVM. -/
def allocateCopy (bytes : Bytes) : Act Library (ToolAnswer MemoryBlock) := do
  match ← allocate bytes.length bytes with
  | .error code => return .error code
  | .ok none => return .error ErrorCode.outOfMemory
  | .ok (some block) => return .ok block

/-- Reads the text in a block and gives the block back. -/
def takeText (block : MemoryBlock) : Act Library (ToolAnswer String) := do
  match ← ToolTable.deallocate block with
  | .error code => return .error code
  | .ok () => return .ok block.text

/-- The type signature of a class. -/
def getClassSignature (r : JvmRef) : Act Library (ToolAnswer String) := do
  match ← ToolTable.getClassSignature r with
  | .error code => return .error code
  | .ok block => takeText block

/-- References to all loaded classes. -/
def getLoadedClasses : Act Library (ToolAnswer (List JvmRef)) := do
  match ← ToolTable.getLoadedClasses with
  | .error code => return .error code
  | .ok none => return .ok []
  | .ok (some (refs, block)) =>
    match ← ToolTable.deallocate block with
    | .error code => return .error code
    | .ok () => return .ok refs

/-- Transforms classes again; nothing is asked of the JVM for no classes. -/
def retransformClasses (hook : LoadHook) (refs : List JvmRef) : Act Library (ToolAnswer Unit) :=
  if refs.isEmpty then return .ok () else ToolTable.retransformClasses hook refs

/-- Makes the classes of an archive visible to all loaders. A path that holds a zero character
cannot be passed to the JVM. -/
def addToBootstrapSearch (segment : String) : Act Library (ToolAnswer Unit) :=
  if segment.toList.contains '\x00' then return .error ErrorCode.illegalArgument
  else ToolTable.addToBootstrapSearch segment

/-- The name of an error. -/
def getErrorName (code : ErrorCode) : Act Library (ToolAnswer String) := do
  match ← ToolTable.getErrorName code with
  | .error code => return .error code
  | .ok block => takeText block

/-- The name of an error, or a name made from its code if the JVM has none. -/
def describeError (code : ErrorCode) : Act Library String := do
  match ← getErrorName code with
  | .ok name => return name
  | .error _ => return "JVMTI_ERROR_" ++ toString code

end AdviceWeaver.ToolInterface

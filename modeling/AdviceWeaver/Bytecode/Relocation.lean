import AdviceWeaver.Bytecode.Layout
import AdviceWeaver.ClassFile.Encode

/-!
# Relocating a method body

`Code.insertHooks` puts hook calls into a method body and repairs every offset that points into it:
branch distances, switch tables, the exception table, stack map frames, line numbers and the live
ranges of local variables. Hook calls are static and take and give nothing, so they leave operand
stack and local variables alone: every frame stays right at its new offset, and the body needs no
more stack than before.

Type annotations inside a body hold offsets too, and are dropped. Any other nested attribute holds
none and is copied from the class file it was read from.
-/

namespace AdviceWeaver

namespace Layout

/-- The distance from the new offset of `site` to where the target of an old distance landed. -/
def distance (layout : Layout) (site : Site) (old : Int32) : Except WeaveError Int32 := do
  let target ← layout.mapTarget site.pc old.toInt
  return Int32.ofInt ((target : Int) - site.newPc)

/-- The instruction of a site with its distances mended. -/
def mend (layout : Layout) (site : Site) : Except WeaveError Instruction :=
  match site.instruction with
  | .plain op operands => .ok (.plain op operands)
  | .branch op old => do
    let target ← layout.mapTarget site.pc old.toInt
    let new : Int := (target : Int) - site.newPc
    if new < -32768 ∨ 32767 < new then throw (.branchOverflow site.pc)
    return .branch op (Int16.ofInt new)
  | .wideBranch op old => return .wideBranch op (← layout.distance site old)
  | .tableSwitch padding default low high distances => do
    let default ← layout.distance site default
    return .tableSwitch padding default low high (← distances.mapM (layout.distance site))
  | .lookupSwitch padding default cases => do
    let default ← layout.distance site default
    let cases ← cases.mapM fun (key, old) => return (key, ← layout.distance site old)
    return .lookupSwitch padding default cases

/-- The instructions of the new body. -/
def body (layout : Layout) (hooks : HookRefs) : Except WeaveError (List Instruction) := do
  let mended ← layout.sites.mapM layout.mend
  return hooks.prologue
    ++ mended.flatMap fun i => if i.isReturn then hooks.exitCalls ++ [i] else [i]

/-! ### Tables -/

/-- An exception handler in the new body. -/
def mapHandler (layout : Layout) (h : ExceptionHandler) : Except WeaveError ExceptionHandler :=
  return ⟨← layout.map h.start.toNat h.start, ← layout.map h.stop.toNat h.stop,
    ← layout.map h.handler.toNat h.handler, h.catchType⟩

/-- A line number entry in the new body. -/
def mapLine (layout : Layout) (e : LineEntry) : Except WeaveError LineEntry :=
  return ⟨← layout.map e.start.toNat e.start, e.line⟩

/-- A local variable entry in the new body: the range from the new start to the new end. -/
def mapVariable (layout : Layout) (e : VariableEntry) : Except WeaveError VariableEntry := do
  let start ← layout.map e.start.toNat e.start
  let stop := e.start.toNat + e.length.toNat
  match layout.map? stop with
  | some newStop => return { e with start, length := UInt16.ofNat (newStop - start.toNat) }
  | none => throw (.badTarget e.start.toNat stop)

/-- A verification type in the new body. -/
def mapType (layout : Layout) : VerificationType → Except WeaveError VerificationType
  | .uninitialized pc => return .uninitialized (← layout.map pc.toNat pc)
  | type => .ok type

/-- The types of a frame in the new body. -/
def mapTypes (layout : Layout) : StackFrame → Except WeaveError StackFrame
  | .oneItem delta item => return .oneItem delta (← layout.mapType item)
  | .oneItemExtended delta item => return .oneItemExtended delta (← layout.mapType item)
  | .append delta locals => return .append delta (← locals.mapM layout.mapType)
  | .full delta locals stack =>
    return .full delta (← locals.mapM layout.mapType) (← stack.mapM layout.mapType)
  | frame => .ok frame

/-- Stack map frames in the new body, behind those of `done`, which are kept in reverse. The
distance of a frame counts from one octet behind the frame before it: from `next` in the old body
and from `newNext` in the new one. -/
def mapFramesOnto (layout : Layout) (next newNext : Nat) (done : List StackFrame) :
    List StackFrame → Except WeaveError (List StackFrame)
  | [] => .ok done.reverse
  | frame :: rest => do
    let old := next + frame.delta.toNat
    let some new := layout.map? old | throw (.badTarget old old)
    let mapped ← layout.mapTypes (frame.fit (UInt16.ofNat (new - newNext)))
    mapFramesOnto layout (old + 1) (new + 1) (mapped :: done) rest

/-- Stack map frames in the new body; the first distance is an offset. -/
def mapFrames (layout : Layout) (frames : List StackFrame) : Except WeaveError (List StackFrame) :=
  layout.mapFramesOnto 0 0 [] frames

/-- The octets of the content of an attribute that holds offsets into the body; none for one that
holds none. -/
def mapContent (layout : Layout) : Content → Except WeaveError (Option Bytes)
  | .stackMapTable frames =>
    return some (encodeTable StackFrame.encode (← layout.mapFrames frames))
  | .lineNumberTable entries =>
    return some (encodeTable LineEntry.encode (← entries.mapM layout.mapLine))
  | .localVariableTable entries | .localVariableTypeTable entries =>
    return some (encodeTable VariableEntry.encode (← entries.mapM layout.mapVariable))
  | _ => .ok none

/-- The octets of an attribute of the new body; what holds no offsets is copied from the class
file. -/
def mapAttribute (layout : Layout) (classBytes : Bytes) (a : Attribute) :
    Except WeaveError Bytes := do
  match ← layout.mapContent a.content with
  | some content => return encodeAttribute a.name content
  | none =>
    match Bytes.slice? classBytes a.span.start a.span.stop with
    | some octets => return octets
    | none => throw (.truncated a.span.start)

end Layout

/-- Whether an attribute of a body survives: type annotations do not. -/
def Attribute.isKept (a : Attribute) : Bool :=
  match a.content with
  | .visibleTypeAnnotations | .invisibleTypeAnnotations => false
  | _ => true

/-- The content of a code attribute with hook calls inserted. `classBytes` is the class file that
the body was read from. -/
def CodeOf.insertHooks (body : Code) (classBytes : Bytes) (hooks : HookRefs) :
    Except WeaveError Bytes := do
  let instructions ← Body.decode body.code
  let layout := Layout.of instructions hooks
  if 65535 < layout.newLength then throw (.codeTooLarge layout.newLength)
  let code := Body.encode (← layout.body hooks)
  let handlers ← body.handlers.mapM layout.mapHandler
  let attributes ← (body.attributes.filter Attribute.isKept).mapM (layout.mapAttribute classBytes)
  return Bytes.ofUInt16 body.maxStack ++ Bytes.ofUInt16 body.maxLocals
    ++ Bytes.ofUInt32 (UInt32.ofNat code.length) ++ code
    ++ encodeTable ExceptionHandler.encode handlers ++ encodeTable id attributes

end AdviceWeaver

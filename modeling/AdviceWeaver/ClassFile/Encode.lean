import AdviceWeaver.ClassFile.Attribute

/-!
# The written form of attribute tables

The octets of the tables that a method body carries, as the class file format lays them out: a count
of 16 bits and the entries. The form of a stack map frame follows from its kind, so a frame whose
distance does not fit its kind has to be brought to another kind before (`StackFrame.fit`).
-/

namespace AdviceWeaver

/-- A table: the number of its entries, and the entries. -/
def encodeTable {α : Type} (encode : α → Bytes) (entries : List α) : Bytes :=
  Bytes.ofUInt16 (UInt16.ofNat entries.length) ++ entries.flatMap encode

/-- The form of an exception handler. -/
def ExceptionHandler.encode (h : ExceptionHandler) : Bytes :=
  Bytes.ofUInt16 h.start ++ Bytes.ofUInt16 h.stop ++ Bytes.ofUInt16 h.handler
    ++ Bytes.ofUInt16 h.catchType

/-- The form of a line number entry. -/
def LineEntry.encode (e : LineEntry) : Bytes :=
  Bytes.ofUInt16 e.start ++ Bytes.ofUInt16 e.line

/-- The form of a local variable entry. -/
def VariableEntry.encode (e : VariableEntry) : Bytes :=
  Bytes.ofUInt16 e.start ++ Bytes.ofUInt16 e.length ++ Bytes.ofUInt16 e.name
    ++ Bytes.ofUInt16 e.descriptor ++ Bytes.ofUInt16 e.slot

/-- The form of a verification type. -/
def VerificationType.encode : VerificationType → Bytes
  | .top => [0]
  | .integer => [1]
  | .float => [2]
  | .double => [3]
  | .long => [4]
  | .null => [5]
  | .uninitializedThis => [6]
  | .object type => 7 :: Bytes.ofUInt16 type
  | .uninitialized pc => 8 :: Bytes.ofUInt16 pc

/-- The form of a stack map frame. -/
def StackFrame.encode : StackFrame → Bytes
  | .same delta => [delta.toUInt8]
  | .oneItem delta item => (64 + delta.toUInt8) :: item.encode
  | .oneItemExtended delta item => 247 :: Bytes.ofUInt16 delta ++ item.encode
  | .chop delta locals => (251 - locals) :: Bytes.ofUInt16 delta
  | .sameExtended delta => 251 :: Bytes.ofUInt16 delta
  | .append delta locals =>
    (251 + UInt8.ofNat locals.length) :: Bytes.ofUInt16 delta
      ++ locals.flatMap VerificationType.encode
  | .full delta locals stack =>
    255 :: Bytes.ofUInt16 delta ++ encodeTable VerificationType.encode locals
      ++ encodeTable VerificationType.encode stack

/-- The same frame at another distance: the short kinds hold distances up to 63, and a frame with
one stack item takes the short kind whenever it can. -/
def StackFrame.fit (delta : UInt16) : StackFrame → StackFrame
  | .same _ => if delta ≤ 63 then .same delta else .sameExtended delta
  | .sameExtended _ => .sameExtended delta
  | .oneItem _ item | .oneItemExtended _ item =>
    if delta ≤ 63 then .oneItem delta item else .oneItemExtended delta item
  | .chop _ locals => .chop delta locals
  | .append _ locals => .append delta locals
  | .full _ locals stack => .full delta locals stack

/-- An attribute: its name, the number of octets of its content, and the content. -/
def encodeAttribute (name : UInt16) (content : Bytes) : Bytes :=
  Bytes.ofUInt16 name ++ Bytes.ofUInt32 (UInt32.ofNat content.length) ++ content

end AdviceWeaver

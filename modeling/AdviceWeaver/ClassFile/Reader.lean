import AdviceWeaver.ClassFile.Basic
import AdviceWeaver.ClassFile.Cursor

/-!
# Reading class files

`ClassFile.read` takes a class file from the front of a byte string; bytes behind the last attribute
of the class are not looked at. The content of an attribute is read within its declared length, and
an attribute's name is resolved before its content is taken.

Attributes nest in method bodies, and annotations nest in annotations. Both recursions are bounded
by the number of octets at hand, of which every level uses up some.
-/

namespace AdviceWeaver

namespace Reader

/-! ### Constants -/

/-- A constant with the given tag. -/
def constantOf (tag : UInt8) : Reader Constant :=
  match tag with
  | 1 => do
    let length ← u2
    let text ← bytes length.toNat
    return .utf8 (Text.Utf8.decode text)
  | 3 => return .integer (← u4).toInt32
  | 4 => return .float (← u4)
  | 5 => return .long (Bytes.toUInt64 (← u4) (← u4)).toInt64
  | 6 => return .double (Bytes.toUInt64 (← u4) (← u4))
  | 7 => return .classInfo (← u2)
  | 8 => return .string (← u2)
  | 9 => return .fieldRef (← u2) (← u2)
  | 10 => return .methodRef (← u2) (← u2)
  | 11 => return .interfaceMethodRef (← u2) (← u2)
  | 12 => return .nameAndType (← u2) (← u2)
  | 15 => return .methodHandle (← u1) (← u2)
  | 16 => return .methodType (← u2)
  | 17 => return .dynamic (← u2) (← u2)
  | 18 => return .invokeDynamic (← u2) (← u2)
  | 19 => return .module (← u2)
  | 20 => return .package (← u2)
  | tag => throw (.badConstantTag tag)

/-- A constant. -/
def constant : Reader Constant := do
  constantOf (← u1)

/-- Fills `missing` more slots behind those of `slots`. A constant of two slots that comes last
takes one more than was missing. -/
def slotsOnto (missing : Nat) (slots : Array (Option Constant)) :
    Reader (Array (Option Constant)) := fun c =>
  match missing with
  | 0 => .ok (slots, c)
  | missing + 1 =>
    match constant c with
    | .error e => .error e
    | .ok (k, c') =>
      if k.isWide then slotsOnto (missing - 1) ((slots.push (some k)).push none) c'
      else slotsOnto missing (slots.push (some k)) c'
termination_by missing

/-- The constant pool after its count, which is one more than the number of slots in use. -/
def constantPool : Reader ConstantPool := do
  let count ← u2
  return ⟨← slotsOnto (count.toNat - 1) #[none]⟩

/-! ### Tables of a method body -/

/-- An entry of an exception table. -/
def exceptionHandler : Reader ExceptionHandler :=
  return ⟨← u2, ← u2, ← u2, ← u2⟩

/-- An entry of a line number table. -/
def lineEntry : Reader LineEntry :=
  return ⟨← u2, ← u2⟩

/-- An entry of a table of local variables. -/
def variableEntry : Reader VariableEntry :=
  return ⟨← u2, ← u2, ← u2, ← u2, ← u2⟩

/-- A verification type. -/
def verificationType : Reader VerificationType := do
  match ← u1 with
  | 0 => return .top
  | 1 => return .integer
  | 2 => return .float
  | 3 => return .double
  | 4 => return .long
  | 5 => return .null
  | 6 => return .uninitializedThis
  | 7 => return .object (← u2)
  | 8 => return .uninitialized (← u2)
  | _ => throw (.badAttribute "StackMapTable")

/-- A stack map frame. -/
def stackFrame : Reader StackFrame := do
  let kind ← u1
  if kind < 64 then return .same kind.toUInt16
  else if kind < 128 then return .oneItem (kind.toUInt16 - 64) (← verificationType)
  else if kind < 247 then throw (.badAttribute "StackMapTable")
  else if kind = 247 then return .oneItemExtended (← u2) (← verificationType)
  else if kind < 251 then return .chop (← u2) (251 - kind)
  else if kind = 251 then return .sameExtended (← u2)
  else if kind < 255 then return .append (← u2) (← times (kind.toNat - 251) verificationType)
  else return .full (← u2) (← counted verificationType) (← counted verificationType)

/-! ### Annotations -/

/-- The tags of element values that are constants: the primitive types and `s` for a string. -/
def constantTags : List UInt8 :=
  "BCDFIJSZs".toList.map fun c => UInt8.ofNat c.toNat

/-- An annotation whose element values are read by `value`. -/
def annotationOf (value : Reader ElementValue) : Reader Annotation := do
  let type ← u2
  let elements ← counted do
    let name ← u2
    return (name, ← value)
  return ⟨type, elements⟩

/-- An element value nested at most `depth` deep. -/
def elementValue : Nat → Reader ElementValue
  | 0 => throw .unexpectedEnd
  | depth + 1 => do
    let tag ← u1
    if tag ∈ constantTags then return .const tag (← u2)
    else if tag = 0x65 then return .enumConst (← u2) (← u2)
    else if tag = 0x63 then return .classInfo (← u2)
    else if tag = 0x40 then
      let a ← annotationOf (elementValue depth)
      return .nested a.type a.elements
    else if tag = 0x5B then return .array (← counted (elementValue depth))
    else throw (.badAttribute "annotation")

/-- A list of annotations. Every level of nesting takes at least one octet. -/
def annotations : Reader (List Annotation) := fun c =>
  counted (annotationOf (elementValue c.rest.length)) c

/-! ### Attributes -/

/-- A method body whose attributes are read by `nested`. Its code has 1 to 65535 octets. -/
def code (nested : Reader (List Attribute)) : Reader Code := do
  let maxStack ← u2
  let maxLocals ← u2
  let length ← u4
  if length = 0 ∨ 65535 < length then throw (.badAttribute "Code")
  let code ← bytes length.toNat
  let handlers ← counted exceptionHandler
  return { maxStack, maxLocals, code, handlers, attributes := ← nested }

/-- The content of an attribute called `name`. -/
def content (nested : Reader (List Attribute)) (name : String) : Reader Content :=
  match name with
  | "Code" => .code <$> code nested
  | "StackMapTable" => .stackMapTable <$> counted stackFrame
  | "LineNumberTable" => .lineNumberTable <$> counted lineEntry
  | "LocalVariableTable" => .localVariableTable <$> counted variableEntry
  | "LocalVariableTypeTable" => .localVariableTypeTable <$> counted variableEntry
  | "RuntimeVisibleAnnotations" => .visibleAnnotations <$> annotations
  | "RuntimeInvisibleAnnotations" => .invisibleAnnotations <$> annotations
  | "RuntimeVisibleTypeAnnotations" => return .visibleTypeAnnotations
  | "RuntimeInvisibleTypeAnnotations" => return .invisibleTypeAnnotations
  | "Signature" => .signature <$> u2
  | "SourceFile" => .sourceFile <$> u2
  | name => return .other name

/-- An attribute, nested ones being read by `nested`. -/
def attributeEntry (pool : ConstantPool) (nested : Reader (List Attribute)) : Reader Attribute := do
  let start ← offset
  let name ← u2
  let length ← u4
  let text ← pool.getText name
  let contentStart ← offset
  let inside ← bytes length.toNat
  let content ← within contentStart inside (content nested text)
  return { name, span := ⟨start, ← offset⟩, content }

/-- A list of attributes nested at most `depth` deep. -/
def attributes (pool : ConstantPool) : Nat → Reader (List Attribute)
  | 0 => throw .unexpectedEnd
  | depth + 1 => counted (attributeEntry pool (attributes pool depth))

/-! ### Members and the class -/

/-- A field, which is read and forgotten. -/
def field (pool : ConstantPool) (depth : Nat) : Reader Unit := do
  let _ ← bytes 6
  let _ ← attributes pool depth
  return

/-- A method. -/
def method (pool : ConstantPool) (depth : Nat) : Reader MethodInfo :=
  return ⟨← u2, ← u2, ← u2, ← attributes pool depth⟩

/-- A class file whose attributes are nested at most `depth` deep. -/
def classFile (depth : Nat) : Reader ClassFile := do
  let magic ← u4
  if magic ≠ 0xCAFEBABE then throw (.badMagic magic)
  let minorVersion ← u2
  let majorVersion ← u2
  let pool ← constantPool
  let poolEnd ← offset
  let access ← u2
  let thisClass ← u2
  let superClass ← u2
  let interfaces ← counted u2
  let _ ← counted (field pool depth)
  let methods ← counted (method pool depth)
  let attributes ← attributes pool depth
  return { minorVersion, majorVersion, pool, poolEnd, access, thisClass, superClass, interfaces,
           methods, attributes }

end Reader

/-- The class file at the front of a byte string. A level of nesting takes octets, so it is never as
deep as the octets are many. -/
def ClassFile.read (bytes : Bytes) : Except FormatError ClassFile :=
  match Reader.classFile bytes.length ⟨0, bytes⟩ with
  | .ok (c, _) => .ok c
  | .error e => .error e

end AdviceWeaver

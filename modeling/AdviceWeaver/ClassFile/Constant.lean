import AdviceWeaver.ClassFile.Error
import AdviceWeaver.Text.Utf8

/-!
# The constant pool

A class file refers to names, types and members by index into a table of constants. Index 0 is
never used, and a long or double constant occupies two slots, the second of which is unusable. Kept
here are the slots themselves, so that a slot's position is its index.

Floating-point constants are kept as their bits: a class file may hold any of them, signalling NaNs
included, and none may change.
-/

namespace AdviceWeaver

/-- An entry of a constant pool. Indexes refer to other entries of the pool. -/
inductive Constant where
  | utf8 (text : String)
  | integer (value : Int32)
  | float (bits : UInt32)
  | long (value : Int64)
  | double (bits : UInt64)
  | classInfo (name : UInt16)
  | string (text : UInt16)
  | fieldRef (owner nameAndType : UInt16)
  | methodRef (owner nameAndType : UInt16)
  | interfaceMethodRef (owner nameAndType : UInt16)
  | nameAndType (name descriptor : UInt16)
  | methodHandle (kind : UInt8) (reference : UInt16)
  | methodType (descriptor : UInt16)
  | dynamic (bootstrap nameAndType : UInt16)
  | invokeDynamic (bootstrap nameAndType : UInt16)
  | module (name : UInt16)
  | package (name : UInt16)
deriving DecidableEq, Repr, Inhabited

namespace Constant

/-- Long and double constants take two slots. -/
def isWide : Constant → Bool
  | .long _ | .double _ => true
  | _ => false

/-- The tag octet that announces a constant of this kind. -/
def tag : Constant → UInt8
  | .utf8 _ => 1
  | .integer _ => 3
  | .float _ => 4
  | .long _ => 5
  | .double _ => 6
  | .classInfo _ => 7
  | .string _ => 8
  | .fieldRef .. => 9
  | .methodRef .. => 10
  | .interfaceMethodRef .. => 11
  | .nameAndType .. => 12
  | .methodHandle .. => 15
  | .methodType _ => 16
  | .dynamic .. => 17
  | .invokeDynamic .. => 18
  | .module _ => 19
  | .package _ => 20

/-- What follows the tag. -/
def payload : Constant → Bytes
  | .utf8 text => Bytes.ofUInt16 (UInt16.ofNat text.utf8ByteSize) ++ Text.Utf8.encode text
  | .integer value => Bytes.ofUInt32 value.toUInt32
  | .float bits => Bytes.ofUInt32 bits
  | .long value => Bytes.ofUInt64 value.toUInt64
  | .double bits => Bytes.ofUInt64 bits
  | .classInfo i | .string i | .methodType i | .module i | .package i => Bytes.ofUInt16 i
  | .fieldRef a b | .methodRef a b | .interfaceMethodRef a b | .nameAndType a b
  | .dynamic a b | .invokeDynamic a b => Bytes.ofUInt16 a ++ Bytes.ofUInt16 b
  | .methodHandle kind reference => kind :: Bytes.ofUInt16 reference

/-- The form of a constant in a class file. -/
def encode (c : Constant) : Bytes :=
  c.tag :: c.payload

/-- The slots that a constant occupies. -/
def slots (c : Constant) : List (Option Constant) :=
  if c.isWide then [some c, none] else [some c]

end Constant

/-- The slots of a constant pool by index; an unusable index holds nothing. -/
structure ConstantPool where
  slots : Array (Option Constant)
deriving Repr, Inhabited

namespace ConstantPool

/-- The number of slots as the 16 bits of a class file hold it. -/
def count (pool : ConstantPool) : UInt16 :=
  UInt16.ofNat pool.slots.size

/-- The constant at an index. -/
def get (pool : ConstantPool) (index : UInt16) : Except FormatError Constant :=
  if index = 0 then .error (.badConstantIndex index)
  else
    match pool.slots[index.toNat]? with
    | some (some c) => .ok c
    | _ => .error (.badConstantIndex index)

/-- The text of the string constant at an index. -/
def getText (pool : ConstantPool) (index : UInt16) : Except FormatError String := do
  match ← pool.get index with
  | .utf8 text => pure text
  | _ => throw (.badConstantIndex index)

/-- The internal name of the class constant at an index. -/
def getClassName (pool : ConstantPool) (index : UInt16) : Except FormatError String := do
  match ← pool.get index with
  | .classInfo name => pool.getText name
  | _ => throw (.badConstantIndex index)

end ConstantPool

end AdviceWeaver

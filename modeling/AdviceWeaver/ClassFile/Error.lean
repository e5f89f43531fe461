import AdviceWeaver.Failure
import AdviceWeaver.Text.Hex

/-!
# Why a class file cannot be read

The causes for which reading a class file, or resolving an index of its constant pool, fails, and
the wording of each.
-/

namespace AdviceWeaver

/-- A defect of a class file. -/
inductive FormatError where
  /-- The bytes end inside an item. -/
  | unexpectedEnd
  /-- The file does not start with the magic number. -/
  | badMagic (found : UInt32)
  /-- An index names no entry, or not one of the kind asked for. -/
  | badConstantIndex (index : UInt16)
  /-- A constant pool entry has an unknown tag. -/
  | badConstantTag (tag : UInt8)
  /-- The content of an attribute of this name breaks its format. -/
  | badAttribute (name : String)
deriving DecidableEq, Repr, Inhabited

/-- The wording of a defect. -/
def FormatError.message : FormatError → String
  | .unexpectedEnd => "unexpected end of file"
  | .badMagic found => "invalid magic: " ++ Text.hex 0 found.toNat
  | .badConstantIndex index => "invalid constant pool index: " ++ toString index.toNat
  | .badConstantTag tag => "invalid constant pool tag: " ++ toString tag.toNat
  | .badAttribute name => "invalid attribute: " ++ name

/-- The kind of a defect. -/
def FormatError.kind : FormatError → String
  | .unexpectedEnd => "UnexpectedEof"
  | .badMagic .. => "InvalidMagic"
  | .badConstantIndex _ => "InvalidConstantPoolIndex"
  | .badConstantTag _ => "InvalidConstantPoolTag"
  | .badAttribute _ => "InvalidAttribute"

instance : Failure FormatError := ⟨FormatError.kind, FormatError.message⟩

end AdviceWeaver

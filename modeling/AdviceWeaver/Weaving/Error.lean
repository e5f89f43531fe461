import AdviceWeaver.ClassFile.Error
import AdviceWeaver.Failure
import AdviceWeaver.Text.Quoted

/-!
# Why hooks cannot be woven

The causes for which hooks cannot be woven into a class, and the wording of each. Offsets are those
of the body before weaving.
-/

namespace AdviceWeaver

/-- An obstacle to weaving. -/
inductive WeaveError where
  | format (cause : FormatError)
  | unknownOpcode (opcode : UInt8) (pc : Nat)
  /-- The item at this offset runs past the end. -/
  | truncated (at_ : Nat)
  | malformedSwitch (pc : Nat)
  /-- The item at `pc` refers to `target`, where no instruction starts. -/
  | badTarget (pc : Nat) (target : Int)
  | branchOverflow (pc : Nat)
  | codeTooLarge (length : Nat)
  | poolFull
  /-- A text that a constant pool cannot hold. -/
  | unencodable (text : String)
  | noSuchMethod (index : Nat)
deriving DecidableEq, Repr, Inhabited

/-- The wording of an obstacle. -/
def WeaveError.message : WeaveError → String
  | .format cause => cause.message
  | .unknownOpcode opcode pc =>
    "unknown opcode " ++ Text.hex 2 opcode.toNat ++ " at offset " ++ toString pc
  | .truncated pc => "instruction at offset " ++ toString pc ++ " runs past the end of the code"
  | .malformedSwitch pc => "malformed switch at offset " ++ toString pc
  | .badTarget pc target =>
    "offset " ++ toString target ++ " referenced at " ++ toString pc
      ++ " is not an instruction boundary"
  | .branchOverflow pc => "branch at offset " ++ toString pc ++ " no longer fits in 16 bits"
  | .codeTooLarge length => "method body would grow to " ++ toString length ++ " bytes"
  | .poolFull => "constant pool is full"
  | .unencodable text =>
    Text.quote text ++ " cannot be stored as a constant pool Utf8 entry"
  | .noSuchMethod index => "class has no method #" ++ toString index

/-- The kind of an obstacle. -/
def WeaveError.kind : WeaveError → String
  | .format _ => "ClassFile"
  | .unknownOpcode .. => "UnknownOpcode"
  | .truncated _ => "Truncated"
  | .malformedSwitch _ => "MalformedSwitch"
  | .badTarget .. => "InvalidBranchTarget"
  | .branchOverflow _ => "BranchOverflow"
  | .codeTooLarge _ => "CodeTooLarge"
  | .poolFull => "ConstantPoolOverflow"
  | .unencodable _ => "UnencodableConstant"
  | .noSuchMethod _ => "NoSuchMethod"

instance : Failure WeaveError := ⟨WeaveError.kind, WeaveError.message⟩

end AdviceWeaver

import AdviceWeaver.ClassFile.Error
import AdviceWeaver.Failure

/-!
# Why a matcher gives no answer

The causes for which a type cannot be looked up or a matcher cannot decide, and the wording of each.
-/

namespace AdviceWeaver

/-- A failure of matching. -/
inductive MatchError where
  | unresolvable (name reason : String)
  /-- A class loader failed with this message. -/
  | loader (message : String)
  | format (cause : FormatError)
  | failed (message : String)
deriving DecidableEq, Repr, Inhabited

/-- The wording of a failure. -/
def MatchError.message : MatchError → String
  | .unresolvable name reason => "cannot resolve " ++ name ++ ": " ++ reason
  | .loader message => "class loader lookup failed: " ++ message
  | .format cause => cause.message
  | .failed message => message

/-- The kind of a failure. -/
def MatchError.kind : MatchError → String
  | .unresolvable .. => "Unresolvable"
  | .loader _ => "Loader"
  | .format _ => "ClassFile"
  | .failed _ => "Failed"

instance : Failure MatchError := ⟨MatchError.kind, MatchError.message⟩

end AdviceWeaver

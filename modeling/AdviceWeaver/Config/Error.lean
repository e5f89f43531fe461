import AdviceWeaver.Failure
import AdviceWeaver.Text.Quoted

/-!
# Why a configuration is refused

The causes, and the wording of each.
-/

namespace AdviceWeaver

/-- A defect of a configuration. -/
inductive ConfigError where
  | invalidBool (key value : String)
  /-- An option that has no key, as it was written. -/
  | emptyKey (token : String)
deriving DecidableEq, Repr, Inhabited

/-- The wording of a defect. -/
def ConfigError.message : ConfigError → String
  | .invalidBool key value => "invalid boolean " ++ Text.quote value ++ " for " ++ key
  | .emptyKey token => "option " ++ Text.quote token ++ " has no key"

/-- The kind of a defect. -/
def ConfigError.kind : ConfigError → String
  | .invalidBool .. => "InvalidBool"
  | .emptyKey _ => "EmptyKey"

instance : Failure ConfigError := ⟨ConfigError.kind, ConfigError.message⟩

end AdviceWeaver

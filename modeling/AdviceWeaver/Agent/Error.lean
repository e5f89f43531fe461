import AdviceWeaver.Config.Error
import AdviceWeaver.Failure
import AdviceWeaver.Hosting.Host

/-!
# Why the agent refuses a call

The causes, and the wording of each.
-/

namespace AdviceWeaver

/-- A failure of the agent. -/
inductive AgentError where
  | illegalState (what : String)
  | config (cause : ConfigError)
  | host (cause : HostError)
  | locator (cause : LocatorError)
deriving DecidableEq, Repr, Inhabited

/-- The wording of a failure. -/
def AgentError.message : AgentError → String
  | .illegalState what => "illegal state: " ++ what
  | .config cause => cause.message
  | .host cause => cause.message
  | .locator cause => cause.message

/-- The kind of a failure. -/
def AgentError.kind : AgentError → String
  | .illegalState _ => "IllegalState"
  | .config _ => "Config"
  | .host _ => "Host"
  | .locator _ => "Locator"

instance : Failure AgentError := ⟨AgentError.kind, AgentError.message⟩

end AdviceWeaver

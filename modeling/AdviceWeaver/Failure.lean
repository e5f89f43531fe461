/-!
# Failures as they are reported

What a report on a failure says: the name of its kind, without its particulars, and its wording.
-/

namespace AdviceWeaver

/-- Errors that can be reported. -/
class Failure (ε : Type) where
  /-- The name of the kind of failure. A failure that wraps another one has a kind of its own. -/
  kind : ε → String
  /-- The wording, with the particulars. -/
  message : ε → String

end AdviceWeaver

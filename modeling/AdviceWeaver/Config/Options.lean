import AdviceWeaver.Config.Error
import AdviceWeaver.Text.Search

/-!
# Agent options

The text behind the agent's path on the command line of a JVM: `key=value` pairs with commas between
them. A part without an equals sign continues the value before it, so
`disabled_instrumentations=jdbc,redis,instrument=false` disables two groups. Blanks around keys and
around each part of a value do not count; of several values for a key the last one does.
-/

namespace AdviceWeaver

/-- Options in the order they were written. -/
structure AgentOptions where
  values : List (String × String)
deriving DecidableEq, Repr, Inhabited

namespace AgentOptions

/-- Adds one part of the text to the options so far, the latest of which comes first. -/
def addToken (done : List (String × String)) (token : List Char) :
    Except ConfigError (List (String × String)) :=
  match Text.splitFirst '=' token with
  | some (key, value) =>
    let key := Text.trimChars key
    if key.isEmpty then .error (.emptyKey (String.ofList token))
    else .ok ((String.ofList key, String.ofList (Text.trimChars value)) :: done)
  | none =>
    let more := Text.trimChars token
    match done with
    | (key, value) :: rest => .ok ((key, value ++ "," ++ String.ofList more) :: rest)
    | [] => if more.isEmpty then .ok [] else .error (.emptyKey (String.ofList token))

/-- The options in a text. -/
def parse (text : String) : Except ConfigError AgentOptions := do
  let values ← (Text.splitAll ',' text.toList).foldlM addToken []
  return ⟨values.reverse⟩

def isEmpty (options : AgentOptions) : Bool :=
  options.values.isEmpty

/-- The last value of a key. -/
def get (options : AgentOptions) (key : String) : Option String :=
  options.values.reverse.lookup key

/-- Options with their fields. -/
def debug (options : AgentOptions) : String :=
  Text.showRecord "AgentOptions"
    [("values", Text.showList (fun (k, v) => "(" ++ Text.quote k ++ ", " ++ Text.quote v ++ ")")
      options.values)]

end AgentOptions

end AdviceWeaver

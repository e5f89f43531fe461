import AdviceWeaver.Config.Source
import AdviceWeaver.Text.Ascending

/-!
# The settings of the engine

The few settings that the engine reads itself, and the `Tracer`, which instrumentation modules
receive to read their own.
-/

namespace AdviceWeaver

/-- The settings of the engine. -/
structure CoreConfiguration where
  /-- Whether modules are active at all. -/
  instrument : Bool
  /-- The groups switched off by name, ascending, each once. -/
  disabled : List String
  logLevel : String
deriving DecidableEq, Repr, Inhabited

namespace CoreConfiguration

/-- The settings if nothing is configured. -/
def default : CoreConfiguration := ⟨true, [], "info"⟩

/-- Switches a group off. -/
def disable (c : CoreConfiguration) (group : String) : CoreConfiguration :=
  { c with disabled := Text.insertAscending group c.disabled }

/-- The truth value of a setting. -/
def parseBool (key value : String) : Except ConfigError Bool :=
  let word := (Text.trim value).map Char.toLower
  if word ∈ ["true", "1", "yes"] then .ok true
  else if word ∈ ["false", "0", "no"] then .ok false
  else .error (.invalidBool key value)

/-- The names in a list with commas between them, without blanks and empty ones. -/
def parseNames (value : String) : List String :=
  ((Text.splitAll ',' value.toList).map fun part => String.ofList (Text.trimChars part)).filter
    (· ≠ "")

/-- The key of the global switch. -/
def instrumentKey : String := "instrument"

/-- The key of the list of disabled groups. -/
def disabledKey : String := "disabled_instrumentations"

/-- The key of the log level. -/
def logLevelKey : String := "log_level"

/-- The settings in a source; what it lacks is as by default. -/
def ofSource (source : ConfigSource) : Except ConfigError CoreConfiguration := do
  let instrument ←
    match source.get instrumentKey with
    | some value => parseBool instrumentKey value
    | none => pure default.instrument
  let disabled :=
    match source.get disabledKey with
    | some value => (parseNames value).foldl (fun names n => Text.insertAscending n names) []
    | none => default.disabled
  let logLevel :=
    match source.get logLevelKey with
    | some value => if Text.trim value = "" then default.logLevel else Text.trim value
    | none => default.logLevel
  return ⟨instrument, disabled, logLevel⟩

/-- Settings with their fields. -/
def debug (c : CoreConfiguration) : String :=
  let disabled := if c.disabled.isEmpty then "\x7b\x7d"
    else "\x7b" ++ ", ".intercalate (c.disabled.map Text.quote) ++ "\x7d"
  Text.showRecord "CoreConfiguration"
    [("instrument", toString c.instrument), ("disabled_instrumentations", disabled),
     ("log_level", Text.quote c.logLevel)]

end CoreConfiguration

/-- What instrumentation modules are initialized with. -/
structure Tracer where
  core : CoreConfiguration
  source : ConfigSource
deriving Repr, Inhabited

namespace Tracer

/-- The tracer over a source, if its settings can be read. -/
def ofSource (source : ConfigSource) : Except ConfigError Tracer := do
  return ⟨← CoreConfiguration.ofSource source, source⟩

/-- The value of a key. -/
def config (t : Tracer) (key : String) : Option String :=
  t.source.get key

/-- A tracer with its fields. -/
def debug (t : Tracer) : String :=
  Text.showRecord "Tracer" [("core", t.core.debug), ("source", Text.quote t.source.name)]

end Tracer

end AdviceWeaver

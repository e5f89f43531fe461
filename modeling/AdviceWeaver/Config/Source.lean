import AdviceWeaver.Config.Options

/-!
# Configuration sources

A configuration is looked up by keys in lower snake case. Sources can be layered; the first one that
has a key decides.
-/

namespace AdviceWeaver

/-- Environment variables by name. -/
structure Environment where
  entries : List (String × String)
deriving DecidableEq, Repr, Inhabited

/-- The value of the variable: what follows its name and an equals sign. -/
def Environment.get (env : Environment) (name : String) : Option String :=
  let start := name.toList ++ ['=']
  if name.toList.contains '\x00' then none
  else env.entries.findSome? fun (n, v) =>
    let entry := n.toList ++ '=' :: v.toList
    if start.isPrefixOf entry then some (String.ofList (entry.drop start.length)) else none

/-- Where settings come from. -/
inductive ConfigSource where
  | map (name : String) (values : List (String × String))
  | options (options : AgentOptions)
  | environment (env : Environment)
  | composite (sources : List ConfigSource)
deriving Repr, Inhabited

namespace ConfigSource

/-- The ASCII letters of a text in upper case. -/
def upper (text : String) : String :=
  text.map Char.toUpper

/-- What the names of the agent's environment variables start with. -/
def variableStart : String := "ELASTIC_APM_"

/-- The value of a key. -/
def get (source : ConfigSource) (key : String) : Option String :=
  match source with
  | .map _ values => values.lookup key
  | .options given => given.get key
  | .environment env => env.get (variableStart ++ upper key)
  | .composite sources => getFirst sources key
where
  /-- The value of a key in the first source that has it. -/
  getFirst (sources : List ConfigSource) (key : String) : Option String :=
    match sources with
    | [] => none
    | s :: rest =>
      match s.get key with
      | some value => some value
      | none => getFirst rest key

/-- The name of a source. -/
def name : ConfigSource → String
  | .map name _ => name
  | .options _ => "agent options"
  | .environment _ => "environment"
  | .composite _ => "composite"

end ConfigSource

end AdviceWeaver

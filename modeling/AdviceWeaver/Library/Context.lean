import AdviceWeaver.Instrumentation.Module

/-!
# Catalogs

A catalog makes the instrumentation modules of an agent once it is known where the agent's hook
classes are.
-/

namespace AdviceWeaver

/-- Where the agent's archive is, if that is known, and where its hook classes are read. -/
structure AgentContext where
  jar : Option String
  locator : Locator
deriving Inhabited

/-- A hook class of the agent. -/
def AgentContext.hook (c : AgentContext) (className : String) : HookReference :=
  ⟨className, c.locator⟩

/-- What a catalog answers: its modules, unless it panics, and the note that it leaves behind. -/
structure CatalogAnswer where
  note : Option String
  modules : Option (List Module)

/-- A maker of modules. -/
structure Catalog where
  make : AgentContext → CatalogAnswer

/-- The catalog without modules. -/
def Catalog.empty : Catalog := ⟨fun _ => ⟨none, some []⟩⟩

end AdviceWeaver

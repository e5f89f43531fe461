import AdviceWeaver.Config.Core
import AdviceWeaver.Description.Name
import AdviceWeaver.Locator.Basic
import AdviceWeaver.Matching.Matcher
import AdviceWeaver.Session.Journal

/-!
# Instrumentation modules

A module says which methods of which types and loaders it wants to see, in which groups it can be
switched off, and which hook class is to be called. It is initialized once before it is used.
-/

namespace AdviceWeaver

/-- A hook class by its binary name, and where its class file is read. -/
structure HookReference where
  className : String
  locator : Locator
deriving Inhabited

namespace HookReference

/-- The name of the hook class in class files. -/
def internal (h : HookReference) : String :=
  internalName h.className

/-- A hook reference with its fields. -/
def debug (h : HookReference) : String :=
  Text.showRecord "HookReference"
    [("class_name", Text.quote h.className), ("locator", Text.quote h.locator.describe)]

end HookReference

/-- How the initialization of a module ends. -/
inductive InitOutcome where
  | done
  | failed (message : String)
  | panicked
deriving DecidableEq, Repr, Inhabited

/-- What the initialization of a module does: the log events that it makes, and how it ends. -/
structure InitReport where
  events : List LogEvent
  outcome : InitOutcome
deriving DecidableEq, Repr, Inhabited

/-- An instrumentation module. -/
structure Module where
  /-- The number of the module in its catalog. -/
  number : Nat
  name : String
  groups : List String
  types : Matcher .type
  methods : Matcher .method
  loaders : Matcher .loader
  hook : HookReference
  /-- Whether the module is active even if instrumentation is switched off as a whole. -/
  alwaysOn : Bool
  init : Tracer → InitReport
  /-- Whether initialization leaves a note. -/
  notesInit : Bool
deriving Inhabited

namespace Module

/-- **Activation:** a module is active unless one of its groups is disabled, provided that
instrumentation is switched on or does not matter to it. -/
def isIncluded (m : Module) (c : CoreConfiguration) : Bool :=
  !(m.groups.any fun g => c.disabled.contains g) && (m.alwaysOn || c.instrument)

end Module

end AdviceWeaver

import AdviceWeaver.Logging.Directive

/-!
# Log filters

A filter says which log events are shown. It is written as directives with commas between them; a
text in which one of them is none is no filter. A filter without directives shows nothing.

The filter of a process is chosen once, from an environment variable, else from a setting, else by
default; a text that is no filter is passed over.
-/

namespace AdviceWeaver

/-- The directives of a filter. -/
structure LogFilter where
  directives : List LogDirective
deriving DecidableEq, Repr, Inhabited

namespace LogFilter

/-- The filter in a text. -/
def parse? (text : String) : Option LogFilter := do
  let parts := (Text.splitAll ',' text.toList).filter fun part => !part.isEmpty
  return ⟨← parts.mapM LogDirective.parse?⟩

/-- The more verbose of two levels. -/
def moreVerbose : Option Level → Option Level → Option Level
  | none, b => b
  | a, none => a
  | some a, some b => if a.rank < b.rank then some b else some a

/-- The most verbose level that the filter lets through anywhere. The value of a field is not known
before the events in its span, so a directive that asks for one lets everything through. -/
def mostVerbose (f : LogFilter) : Option Level :=
  if f.directives.any fun d => d.field.any (·.value.isSome) then some .trace
  else f.directives.foldl (fun level d => moreVerbose level d.level) none

/-- The environment variable that holds a filter. -/
def environmentKey : String := "APM_LOG"

/-- The filter if nothing else is given. -/
def default : LogFilter := ⟨[⟨none, none, none, some .info⟩]⟩

/-- The first of two texts that is a filter, else the default. -/
def choose (fromEnvironment setting : Option String) : LogFilter :=
  ([fromEnvironment, setting].findSome? fun text => text.bind parse?).getD default

end LogFilter

/-- The receiver of a process's log events, which is set up at most once. -/
structure LogReceiver where
  filter : Option LogFilter
deriving DecidableEq, Repr, Inhabited

namespace LogReceiver

/-- No receiver yet. -/
def absent : LogReceiver := ⟨none⟩

/-- Sets the receiver up unless there is one, and says whether that was done. -/
def init (r : LogReceiver) (fromEnvironment setting : Option String) : Bool × LogReceiver :=
  match r.filter with
  | some _ => (false, r)
  | none => (true, ⟨some (LogFilter.choose fromEnvironment setting)⟩)

end LogReceiver

end AdviceWeaver

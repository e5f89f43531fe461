import AdviceWeaver.Bytes

/-!
# What is written down while the engine works

Log events are kept up to a level, in order; without a level none are kept and the text of none is
made. Notes are left by what the engine calls out to — matchers from outside, sources of class
files, modules being initialized — and show what was evaluated, how often, and in which order.
-/

namespace AdviceWeaver

/-- How severe a log event is, the most severe first. -/
inductive Level where
  | error
  | warn
  | info
  | debug
  | trace
deriving DecidableEq, Repr, Inhabited

namespace Level

/-- The position of a level; more verbose ones have a higher position. -/
def rank : Level → Nat
  | .error => 1
  | .warn => 2
  | .info => 3
  | .debug => 4
  | .trace => 5

def name : Level → String
  | .error => "error"
  | .warn => "warn"
  | .info => "info"
  | .debug => "debug"
  | .trace => "trace"

/-- All levels, the most severe first. -/
def all : List Level := [.error, .warn, .info, .debug, .trace]

end Level

/-- A log event. -/
structure LogEvent where
  level : Level
  message : String
  fields : List (String × String)
deriving DecidableEq, Repr, Inhabited

/-- What something outside of the engine left behind. -/
inductive Note where
  | text (text : String)
  /-- The module with this number and name was asked to initialize itself. -/
  | initializing (module_ : Nat) (name : String)
deriving DecidableEq, Repr, Inhabited

/-- The text of a note. -/
def Note.render : Note → String
  | .text s => s
  | .initializing _ name => "init:" ++ name

/-- The notes and log events so far, the latest first. -/
structure Journal where
  /-- The most verbose level that is kept. -/
  level : Option Level
  notes : List Note
  events : List LogEvent
deriving DecidableEq, Repr, Inhabited

namespace Journal

/-- Nothing written down yet. -/
def empty : Journal := ⟨none, [], []⟩

/-- Whether events of a level are kept. -/
def keeps (j : Journal) (level : Level) : Bool :=
  match j.level with
  | some most => level.rank ≤ most.rank
  | none => false

/-- With one more note. -/
def note (j : Journal) (n : Note) : Journal :=
  { j with notes := n :: j.notes }

/-- With one more event if its level is kept. -/
def log (j : Journal) (e : LogEvent) : Journal :=
  if j.keeps e.level then { j with events := e :: j.events } else j

end Journal

end AdviceWeaver

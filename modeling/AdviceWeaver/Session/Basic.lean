import AdviceWeaver.Description.Loader
import AdviceWeaver.Description.Type
import AdviceWeaver.Failure
import AdviceWeaver.Session.Journal
import AdviceWeaver.Text.Ascending

/-!
# Sessions and actions

An action is what the engine does when it may write to the journal, look types up in a pool, or call
out to class loaders and to the host. It acts on a `Session`, whose last part is the world the
engine runs in and is left open here. An action may panic; what it did before stays done.

Type pools belong to the session because a lookup that succeeded is remembered. They are named by
their number, so a description can say where its super types are looked up. The session also holds
the records of the classes that were woven, one record for each pipeline.
-/

namespace AdviceWeaver

/-- The number of a class loader in the world. -/
abbrev LoaderId := Nat

/-- What a source of class files answers for a name. -/
inductive SourceAnswer where
  | found (bytes : Bytes)
  | missing
  | fails (message : String)
deriving DecidableEq, Repr, Inhabited

/-- Where a type pool takes descriptions from. `count` bounds the number of names it has. -/
inductive TypeSource where
  /-- Descriptions by binary name. -/
  | described (types : String → Option TypeDescription) (count : Nat)
  /-- Class files by internal name. -/
  | files (answers : String → SourceAnswer) (count : Nat)
  /-- The class files that a class loader sees. -/
  | loader (loader : LoaderId)
  /-- The bootstrap loader, which cannot be searched. -/
  | bootstrap

/-- A type pool: its source, and the descriptions made from class files so far by the name they were
asked for. -/
structure TypePool where
  source : TypeSource
  cache : List (String × TypeDescription)

/-- The number of a record of woven classes. -/
abbrev RecordId := Nat

/-- What actions act on; `ε` is the world outside. -/
structure Session (ε : Type) where
  journal : Journal
  pools : Array TypePool
  /-- The binary names of the classes woven so far, ascending, by record. -/
  records : Array (List String)
  world : ε

/-- A session at its start. -/
def Session.start {ε : Type} (world : ε) : Session ε :=
  ⟨.empty, #[], #[], world⟩

/-- A failure that nobody is expected to handle. -/
structure Panic where
deriving DecidableEq, Repr, Inhabited

/-- An action in a world. -/
abbrev Act (ε α : Type) := ExceptT Panic (StateM (Session ε)) α

namespace Act

variable {ε α : Type}

/-- Panics. -/
def panic : Act ε α :=
  throw {}

/-- The result of an action in a new session. -/
def runIn (world : ε) (a : Act ε α) : Except Panic α :=
  (a.run (.start world)).1

/-- Runs an action and says whether it panicked. -/
def attempt (a : Act ε α) : Act ε (Except Panic α) :=
  ExceptT.mk do return .ok (← a.run)

/-- Leaves a note. -/
def note (n : Note) : Act ε Unit :=
  modify fun s => { s with journal := s.journal.note n }

/-- Logs an event whose fields are plain texts. -/
def log (level : Level) (message : String) (fields : List (String × String)) : Act ε Unit :=
  modify fun s => { s with journal := s.journal.log ⟨level, message, fields⟩ }

/-- Whether events of a level are kept. -/
def keeps (level : Level) : Act ε Bool :=
  return (← get).journal.keeps level

/-- Runs an action only if events of a level are kept, as when a text of the event has to be asked
for. -/
def whenKept (level : Level) (a : Act ε Unit) : Act ε Unit := do
  if ← keeps level then a

/-- Keeps events up to a level from now on. -/
def keepLogs (level : Option Level) : Act ε Unit :=
  modify fun s => { s with journal := { s.journal with level } }

/-- The notes since they were taken last, the earliest first. -/
def takeNotes : Act ε (List Note) := do
  let s ← get
  set { s with journal := { s.journal with notes := [] } }
  return s.journal.notes.reverse

/-- The events since they were taken last, the earliest first. -/
def takeEvents : Act ε (List LogEvent) := do
  let s ← get
  set { s with journal := { s.journal with events := [] } }
  return s.journal.events.reverse

/-- The world. -/
def world : Act ε ε :=
  return (← get).world

/-- Changes the world. -/
def modifyWorld (f : ε → ε) : Act ε Unit :=
  modify fun s => { s with world := f s.world }

/-- A new type pool without anything remembered. -/
def newPool (source : TypeSource) : Act ε PoolId := do
  let s ← get
  set { s with pools := s.pools.push ⟨source, []⟩ }
  return s.pools.size

/-- A new record without entries. -/
def newRecord : Act ε RecordId := do
  let s ← get
  set { s with records := s.records.push [] }
  return s.records.size

/-- The binary names in a record. -/
def recorded (id : RecordId) : Act ε (List String) :=
  return ((← get).records[id]?).getD []

/-- Adds a binary name to a record. -/
def record (id : RecordId) (name : String) : Act ε Unit :=
  modify fun s => { s with records := s.records.modify id (Text.insertAscending name) }

/-- Removes all names from a record. -/
def clearRecord (id : RecordId) : Act ε Unit :=
  modify fun s => { s with records := s.records.modify id fun _ => [] }

end Act

/-! ### Class loaders -/

/-- Why a class loader gave no answer. -/
inductive LoaderError where
  /-- This method of the loader threw. -/
  | exception (method : String)
  | other (message : String)
deriving DecidableEq, Repr, Inhabited

/-- The wording of a failure. -/
def LoaderError.message : LoaderError → String
  | .exception method => method ++ " threw"
  | .other message => message

/-- The kind of a failure. -/
def LoaderError.kind : LoaderError → String
  | .exception _ => "Exception"
  | .other _ => "Other"

instance : Failure LoaderError := ⟨LoaderError.kind, LoaderError.message⟩

/-- A class on its way into a host, or back into it. -/
structure LoadEvent where
  redefining : Bool
  /-- The number of the class loader at the host; none for the bootstrap loader. -/
  loader : Option Nat
  /-- The internal name, which should be UTF-8. -/
  name : Option Bytes
  bytes : Option Bytes
  /-- The length that is passed along with the bytes. -/
  length : Int
deriving DecidableEq, Repr, Inhabited

/-- How the class loaders of a world are asked. -/
structure LoaderOps (ε : Type) where
  /-- What is known of the loader. -/
  describe : LoaderId → Act ε LoaderDescription
  /-- The parent; none for the bootstrap loader. -/
  parent : LoaderId → Act ε (Except LoaderError (Option LoaderId))
  /-- Whether the loader can load the class of this binary name. -/
  canLoad : LoaderId → String → Act ε (Except LoaderError Bool)
  /-- The class file of this internal name, if the loader sees one. -/
  classFile : LoaderId → String → Act ε (Except LoaderError (Option Bytes))
  /-- Gives up a loader that was obtained as a parent. -/
  release : LoaderId → Act ε Unit
  /-- Has a class loaded, or transformed again, on the way; the answer is its new class file, if it was
  changed. -/
  load : LoadEvent → Act ε (Option Bytes)
  /-- A bound on the number of class files that the loader sees. -/
  extent : ε → LoaderId → Nat

end AdviceWeaver

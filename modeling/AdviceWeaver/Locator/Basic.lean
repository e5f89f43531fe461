import AdviceWeaver.Locator.Archive
import AdviceWeaver.Locator.FileTree

/-!
# Locators

Where the class files of hooks come from. A hook is called from classes of any loader, but its own
class file is read from where it ships: an archive, a directory laid out by package, or memory.
Names are internal names.
-/

namespace AdviceWeaver

/-- A place that class files come from. -/
inductive Locator where
  | memory (classes : List (String × Bytes))
  | directory (root : String) (files : FileTree)
  | archive (path : String) (archive : Archive)
  /-- Asks one after the other; the first hit decides. -/
  | compound (parts : List Locator)
  /-- A place that can never be read. -/
  | failing (path message : String)
deriving Inhabited

namespace Locator

/-- The locator of the archive at a path. -/
def openArchive (files : FileTree) (path : String) : Except LocatorError Locator :=
  match files.read path with
  | .error .isDirectory => .error (.archive path (.path .isDirectory))
  | .error e => .error (.io path e.message)
  | .ok bytes =>
    match Archive.openFile bytes with
    | .ok a => .ok (.archive path a)
    | .error e => .error (.archive path e)

/-- The file name of a class. -/
def fileName (name : String) : String :=
  name ++ ".class"

/-- The class file of a name in a directory. -/
def locateInDirectory (root : String) (files : FileTree) (name : String) :
    Except LocatorError (Option Bytes) :=
  let path := FileTree.join root (fileName name)
  match files.read path with
  | .ok bytes => .ok (some bytes)
  | .error .notFound => .ok none
  | .error e => .error (.io path e.message)

/-- The class file of a name in an archive. -/
def locateInArchive (path : String) (a : Archive) (name : String) :
    Except LocatorError (Option Bytes) :=
  match a.entry? (fileName name) with
  | none => .ok none
  | some e =>
    match a.content e with
    | .error cause => .error (.archive path cause)
    | .ok bytes =>
      if Checksum.crc32 bytes = e.checksum then .ok (some bytes)
      else .error (.io path "Invalid checksum")

/-- The class file of a name, if there is one. -/
def locate (l : Locator) (name : String) : Except LocatorError (Option Bytes) :=
  match l with
  | .memory classes => .ok (classes.lookup name)
  | .directory root files => locateInDirectory root files name
  | .archive path a => locateInArchive path a name
  | .compound parts => locateFirst parts name
  | .failing path message => .error (.io path message)
where
  /-- The class file of a name in the first locator that has it. -/
  locateFirst (parts : List Locator) (name : String) : Except LocatorError (Option Bytes) :=
    match parts with
    | [] => .ok none
    | l :: rest =>
      match l.locate name with
      | .ok none => locateFirst rest name
      | decided => decided

/-- What a locator is, in messages. -/
def describe : Locator → String
  | .memory classes => "memory (" ++ toString classes.length ++ " classes)"
  | .directory root _ => "directory " ++ root
  | .archive path _ => "jar " ++ path
  | .compound parts => "[" ++ ", ".intercalate (describeAll parts) ++ "]"
  | .failing path _ => "failing " ++ path
where
  /-- What each of several locators is. -/
  describeAll : List Locator → List String
    | [] => []
    | l :: rest => l.describe :: describeAll rest

end Locator

end AdviceWeaver

import AdviceWeaver.Failure

/-!
# Why a class file cannot be located

A class file that is not there is no error. These are the causes for which a place cannot be looked
at, and the wording of each.
-/

namespace AdviceWeaver

/-- Why a path does not lead to a file that can be read. -/
inductive PathError where
  | notFound
  | notDirectory
  | isDirectory
  | holdsNul
deriving DecidableEq, Repr, Inhabited

/-- The wording of the operating system. -/
def PathError.message : PathError → String
  | .notFound => "No such file or directory (os error 2)"
  | .notDirectory => "Not a directory (os error 20)"
  | .isDirectory => "Is a directory (os error 21)"
  | .holdsNul => "file name contained an unexpected NUL byte"

/-- Why a file cannot be read as an archive. -/
inductive ArchiveError where
  | invalid (what : String)
  | unsupported (what : String)
  /-- The file ends inside an item. -/
  | unexpectedEnd
  | path (cause : PathError)
deriving DecidableEq, Repr, Inhabited

/-- The wording of a defect of an archive. -/
def ArchiveError.message : ArchiveError → String
  | .invalid what => "invalid Zip archive: " ++ what
  | .unsupported what => "unsupported Zip archive: " ++ what
  | .unexpectedEnd => "failed to fill whole buffer"
  | .path cause => cause.message

/-- Why a locator gave no answer. -/
inductive LocatorError where
  | io (path message : String)
  | archive (path : String) (cause : ArchiveError)
deriving DecidableEq, Repr, Inhabited

/-- The wording of a failure. -/
def LocatorError.message : LocatorError → String
  | .io path message => "I/O error reading " ++ path ++ ": " ++ message
  | .archive path cause => "cannot read archive " ++ path ++ ": " ++ cause.message

/-- The kind of a failure. -/
def LocatorError.kind : LocatorError → String
  | .io .. => "Io"
  | .archive .. => "Archive"

instance : Failure LocatorError := ⟨LocatorError.kind, LocatorError.message⟩

end AdviceWeaver

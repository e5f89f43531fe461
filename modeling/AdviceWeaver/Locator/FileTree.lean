import AdviceWeaver.Bytes
import AdviceWeaver.Locator.Error
import AdviceWeaver.Text.Search

/-!
# File trees

The files below a working directory. A path is followed part by part; every part but the last has to
be a directory. Nothing outside of the working directory is known.
-/

namespace AdviceWeaver

/-- Files by the names on the way to them. -/
structure FileTree where
  files : List (List String × Bytes)
deriving DecidableEq, Repr, Inhabited

namespace FileTree

/-- The parts of a path between its slashes. -/
def parts (path : String) : List String :=
  (Text.splitAll '/' path.toList).map String.ofList

/-- The tree with these files, given by their relative paths. -/
def ofPaths (files : List (String × Bytes)) : FileTree :=
  ⟨files.map fun (path, bytes) => (parts path, bytes)⟩

/-- Whether there is a file further down. -/
def isDirectory (tree : FileTree) (place : List String) : Bool :=
  tree.files.any fun (file, _) => place.isPrefixOf file && place.length < file.length

/-- Follows the parts of a path from a directory. -/
def follow (tree : FileTree) (place : List String) : List String → Except PathError Bytes
  | [] => .error .isDirectory
  | part :: rest =>
    if part = "" ∨ part = "." then follow tree place rest
    else if part = ".." then
      if place.isEmpty then .error .notFound else follow tree place.dropLast rest
    else
      let next := place ++ [part]
      match tree.files.lookup next with
      | some bytes => if rest.isEmpty then .ok bytes else .error .notDirectory
      | none => if tree.isDirectory next then follow tree next rest else .error .notFound

/-- The content of the file at a path. -/
def read (tree : FileTree) (path : String) : Except PathError Bytes :=
  if path.toList.contains '\x00' then .error .holdsNul
  else if path = "" ∨ Text.startsWith path "/" then .error .notFound
  else tree.follow [] (parts path)

/-- A path below a directory: one slash stands between the two unless the directory is empty or ends
in one. A path that starts with a slash stands for itself. -/
def join (directory path : String) : String :=
  if Text.startsWith path "/" then path
  else if directory = "" ∨ Text.endsWith directory "/" then directory ++ path
  else directory ++ "/" ++ path

end FileTree

end AdviceWeaver

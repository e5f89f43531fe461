import AdviceWeaver.Text.Search

/-!
# Paths

The directory that a path stands in, as far as the text of the path tells.
-/

namespace AdviceWeaver.Path

/-- Whether the part of a path between two slashes leads nowhere. -/
def isIdle (part : List Char) : Bool :=
  part.isEmpty || part = ['.']

/-- What a path starts with that is no part of a name: the slash of an absolute path, or the dot of
one that names the working directory. -/
def start (path : List Char) : List Char :=
  match path with
  | '/' :: _ => ['/']
  | ['.'] => ['.']
  | '.' :: '/' :: _ => ['.']
  | _ => []

/-- The directory that a path stands in. Slashes and dots at the end do not count; a path without a
name in it has no directory, except that the working directory stands in the empty path. -/
def parent (path : String) : Option String :=
  let start := start path.toList
  let parts := Text.splitAll '/' (path.toList.drop start.length)
  let named := Text.dropEndWhile isIdle parts
  if named.isEmpty then
    if start = ['.'] then some "" else none
  else
    let kept := Text.dropEndWhile isIdle named.dropLast
    some (String.ofList (start ++ ['/'].intercalate kept))

end AdviceWeaver.Path

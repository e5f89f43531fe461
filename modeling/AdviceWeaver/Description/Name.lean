import AdviceWeaver.Text.Search

/-!
# Class names

A class has two names: the binary name with dots, `java.util.Map`, which programs use, and the
internal name with slashes, `java/util/Map`, which class files use.
-/

namespace AdviceWeaver

/-- The binary name for an internal one. -/
def binaryName (internal : String) : String :=
  Text.replaceChar '/' '.' internal

/-- The internal name for a binary one. -/
def internalName (binary : String) : String :=
  Text.replaceChar '.' '/' binary

/-- The root of the class hierarchy. -/
def rootClass : String := "java.lang.Object"

/-- A binary name without its package. -/
def simpleName (binary : String) : String :=
  match Text.splitLast '.' binary.toList with
  | some (_, name) => String.ofList name
  | none => binary

/-- The package of a binary name, which may be empty. -/
def packageName (binary : String) : String :=
  match Text.splitLast '.' binary.toList with
  | some (package, _) => String.ofList package
  | none => ""

end AdviceWeaver

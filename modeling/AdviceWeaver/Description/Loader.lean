import AdviceWeaver.Text.Quoted

/-!
# Descriptions of class loaders

A class loader is known by the binary name of its runtime type; the bootstrap loader has none. Its
own text, if it gave one, is what messages show.
-/

namespace AdviceWeaver

/-- A class loader. -/
structure LoaderDescription where
  typeName : Option String
  display : Option String
deriving DecidableEq, Repr, Inhabited

namespace LoaderDescription

/-- The loader that has no type. -/
def bootstrap : LoaderDescription := ⟨none, none⟩

/-- A loader of a type. -/
def of (typeName : String) : LoaderDescription := ⟨some typeName, none⟩

def isBootstrap (l : LoaderDescription) : Bool :=
  l.typeName.isNone

/-- The name that matchers test; empty for the bootstrap loader. -/
def name (l : LoaderDescription) : String :=
  l.typeName.getD ""

/-- The text of a loader in messages. -/
def render (l : LoaderDescription) : String :=
  l.display.getD (l.typeName.getD "bootstrap")

/-- A loader with its fields. -/
def debug (l : LoaderDescription) : String :=
  Text.showRecord "ClassLoaderDescription"
    [("type_name", Text.showOption Text.quote l.typeName),
     ("display", Text.showOption Text.quote l.display)]

end LoaderDescription

end AdviceWeaver

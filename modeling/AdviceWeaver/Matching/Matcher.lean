import AdviceWeaver.Description.Loader
import AdviceWeaver.Description.Type
import AdviceWeaver.Matching.Error

/-!
# Matchers

A matcher is a predicate over types, methods or class loaders that can be composed, shown, and may
fail. One family of matchers, indexed by the kind of target, serves all three; a matcher from
outside is a label and a function to a judgement, which may also be that it panics, and may leave a
note.
-/

namespace AdviceWeaver

/-- What a matcher looks at. -/
inductive Kind where
  | type
  | method
  | loader
deriving DecidableEq, Repr, Inhabited

/-- The targets of a kind. -/
def Target : Kind → Type
  | .type => TypeDescription
  | .method => MethodDescription
  | .loader => LoaderDescription

namespace Target

/-- The name that a target is matched by. -/
def name : {k : Kind} → Target k → String
  | .type, t => TypeDescription.name t
  | .method, m => MethodDescription.name m
  | .loader, l => LoaderDescription.name l

/-- The access flags of a target; a class loader has none. -/
def modifiers : {k : Kind} → Target k → UInt16
  | .type, t => TypeDescription.modifiers t
  | .method, m => MethodDescription.modifiers m
  | .loader, _ => 0

/-- The annotation types of a target; a class loader has none. -/
def annotations : {k : Kind} → Target k → List String
  | .type, t => TypeDescription.annotations t
  | .method, m => MethodDescription.annotations m
  | .loader, _ => []

/-- The text of a target in messages. -/
def render : {k : Kind} → Target k → String
  | .type, t => TypeDescription.name t
  | .method, m => MethodDescription.render m
  | .loader, l => LoaderDescription.render l

end Target

/-- How a name is compared. -/
inductive NameTest where
  | equals
  | startsWith
  | endsWith
  | contains
deriving DecidableEq, Repr, Inhabited

namespace NameTest

/-- Whether `name` stands in the relation to `text`. -/
def holds (test : NameTest) (name text : String) : Bool :=
  match test with
  | .equals => name = text
  | .startsWith => Text.startsWith name text
  | .endsWith => Text.endsWith name text
  | .contains => Text.contains name text

def label : NameTest → String
  | .equals => "named"
  | .startsWith => "name_starts_with"
  | .endsWith => "name_ends_with"
  | .contains => "name_contains"

def all : List NameTest := [.equals, .startsWith, .endsWith, .contains]

end NameTest

/-- An access flag that can be asked for. -/
inductive Modifier where
  | isPublic
  | isStatic
  | isFinal
  | isAbstract
  | isNative
  | isSynthetic
  | isInterface
deriving DecidableEq, Repr, Inhabited

namespace Modifier

def flag : Modifier → UInt16
  | .isPublic => Access.isPublic
  | .isStatic => Access.isStatic
  | .isFinal => Access.isFinal
  | .isAbstract => Access.isAbstract
  | .isNative => Access.isNative
  | .isSynthetic => Access.isSynthetic
  | .isInterface => Access.isInterface

def label : Modifier → String
  | .isPublic => "is_public()"
  | .isStatic => "is_static()"
  | .isFinal => "is_final()"
  | .isAbstract => "is_abstract()"
  | .isNative => "is_native()"
  | .isSynthetic => "is_synthetic()"
  | .isInterface => "is_interface()"

def all : List Modifier :=
  [.isPublic, .isStatic, .isFinal, .isAbstract, .isNative, .isSynthetic, .isInterface]

end Modifier

/-- How a matcher ends. -/
inductive Verdict where
  | answer (hit : Bool)
  | failed (cause : MatchError)
  | panicked
deriving DecidableEq, Repr, Inhabited

/-- How a matcher from outside ends, and the note that it leaves behind. -/
structure Judgement where
  note : Option String
  verdict : Verdict
deriving DecidableEq, Repr, Inhabited

/-- A predicate over targets of a kind. -/
inductive Matcher : Kind → Type where
  | constant {k : Kind} (value : Bool) : Matcher k
  | not {k : Kind} (m : Matcher k) : Matcher k
  | and {k : Kind} (m n : Matcher k) : Matcher k
  | or {k : Kind} (m n : Matcher k) : Matcher k
  | name {k : Kind} (test : NameTest) (text : String) : Matcher k
  | modifier {k : Kind} (modifier : Modifier) : Matcher k
  | annotated {k : Kind} (type : String) : Matcher k
  | custom {k : Kind} (label : String) (judge : Target k → Judgement) : Matcher k
  /-- The type itself or one of its super types matches. -/
  | hasSuperType (m : Matcher .type) : Matcher .type
  /-- One of the methods that the type declares matches. -/
  | declaresMethod (m : Matcher .method) : Matcher .type
  /-- The type lives in the package or below it. -/
  | inPackage (package : String) : Matcher .type
  | isMethod : Matcher .method
  | isConstructor : Matcher .method
  | takesArguments (count : Nat) : Matcher .method
  | takesArgument (index : Nat) (type : String) : Matcher .method
  | returns (type : String) : Matcher .method
  | hasDescriptor (descriptor : String) : Matcher .method
  | isBootstrapLoader : Matcher .loader
  | loaderNamed (type : String) : Matcher .loader

instance {k : Kind} : Inhabited (Matcher k) :=
  ⟨.constant false⟩

namespace Matcher

/-- The type or one of its super types has this name. -/
def isSubTypeOf (type : String) : Matcher .type :=
  .hasSuperType (.name .equals type)

/-- The loaders behind generated accessors of reflection. -/
def isReflectionLoader : Matcher .loader :=
  .or (.loaderNamed "sun.reflect.DelegatingClassLoader")
    (.loaderNamed "jdk.internal.reflect.DelegatingClassLoader")

/-- What a name in a package or below it starts with: dots at the end of the package count once. -/
def packageStart (package : String) : String :=
  String.ofList (Text.dropEndWhile (· = '.') package.toList ++ ['.'])

/-- The text of a matcher. -/
def render : {k : Kind} → Matcher k → String
  | _, .constant true => "any()"
  | _, .constant false => "none()"
  | _, .not m => "not(" ++ m.render ++ ")"
  | _, .and m n => "(" ++ m.render ++ " and " ++ n.render ++ ")"
  | _, .or m n => "(" ++ m.render ++ " or " ++ n.render ++ ")"
  | _, .name test text => test.label ++ "(" ++ Text.quote text ++ ")"
  | _, .modifier m => m.label
  | _, .annotated type => "is_annotated_with(" ++ Text.quote type ++ ")"
  | _, .custom label _ => label
  | _, .hasSuperType m => "has_super_type(" ++ m.render ++ ")"
  | _, .declaresMethod m => "declares_method(" ++ m.render ++ ")"
  | _, .inPackage package => "in_package(" ++ Text.quote package ++ ")"
  | _, .isMethod => "is_method()"
  | _, .isConstructor => "is_constructor()"
  | _, .takesArguments count => "takes_arguments(" ++ toString count ++ ")"
  | _, .takesArgument index type =>
    "takes_argument(" ++ toString index ++ ", " ++ Text.quote type ++ ")"
  | _, .returns type => "returns(" ++ Text.quote type ++ ")"
  | _, .hasDescriptor descriptor => "has_descriptor(" ++ Text.quote descriptor ++ ")"
  | _, .isBootstrapLoader => "is_bootstrap_class_loader()"
  | _, .loaderNamed type => "class_loader_with_name(" ++ Text.quote type ++ ")"

/-- The matcher with its kind of object named. -/
def debug {k : Kind} (m : Matcher k) : String :=
  "Junction(" ++ m.render ++ ")"

end Matcher

end AdviceWeaver

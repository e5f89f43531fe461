import AdviceWeaver.Bytes

/-!
# Attributes

The attributes of classes, methods and method bodies that instrumentation looks into. Each attribute
knows the span of the class file it was read from, header included, so that everything that does not
change can be copied from there. Attributes of other names keep only their name.

The code attribute holds attributes of its own; it is written over the type of these, which
`Attribute` then closes.
-/

namespace AdviceWeaver

/-- The part of a byte string from `start` up to `stop`. -/
structure Span where
  start : Nat
  stop : Nat
deriving DecidableEq, Repr, Inhabited

/-- Instructions from `start` up to `stop` are protected by `handler` against `catchType`. -/
structure ExceptionHandler where
  start : UInt16
  stop : UInt16
  handler : UInt16
  catchType : UInt16
deriving DecidableEq, Repr, Inhabited

/-- The verifier's type of a local variable or stack item. -/
inductive VerificationType where
  | top
  | integer
  | float
  | double
  | long
  | null
  | uninitializedThis
  | object (type : UInt16)
  /-- A value made by the `new` instruction at this offset. -/
  | uninitialized (pc : UInt16)
deriving DecidableEq, Repr, Inhabited

/-- A stack map frame; `delta` counts from the frame before it. -/
inductive StackFrame where
  | same (delta : UInt16)
  | oneItem (delta : UInt16) (item : VerificationType)
  | oneItemExtended (delta : UInt16) (item : VerificationType)
  | chop (delta : UInt16) (locals : UInt8)
  | sameExtended (delta : UInt16)
  | append (delta : UInt16) (locals : List VerificationType)
  | full (delta : UInt16) (locals stack : List VerificationType)
deriving DecidableEq, Repr, Inhabited

/-- The distance of a frame from the one before it. -/
def StackFrame.delta : StackFrame → UInt16
  | .same d | .oneItem d _ | .oneItemExtended d _ | .chop d _ | .sameExtended d | .append d _
  | .full d _ _ => d

/-- Instructions from `start` on belong to `line`. -/
structure LineEntry where
  start : UInt16
  line : UInt16
deriving DecidableEq, Repr, Inhabited

/-- The variable in `slot` is live for `length` octets of code from `start`. `descriptor` is its
signature in a table of generic types. -/
structure VariableEntry where
  start : UInt16
  length : UInt16
  name : UInt16
  descriptor : UInt16
  slot : UInt16
deriving DecidableEq, Repr, Inhabited

/-- The value of an annotation's element. -/
inductive ElementValue where
  | const (tag : UInt8) (value : UInt16)
  | enumConst (type name : UInt16)
  | classInfo (descriptor : UInt16)
  | nested (type : UInt16) (elements : List (UInt16 × ElementValue))
  | array (values : List ElementValue)
deriving Repr, Inhabited

/-- An annotation: its type and its elements by name. -/
structure Annotation where
  type : UInt16
  elements : List (UInt16 × ElementValue)
deriving Repr, Inhabited

/-- A method body, its attributes being of type `α`. -/
structure CodeOf (α : Type) where
  maxStack : UInt16
  maxLocals : UInt16
  code : Bytes
  handlers : List ExceptionHandler
  attributes : List α
deriving Repr, Inhabited

/-- What an attribute says, nested attributes being of type `α`. -/
inductive ContentOf (α : Type) where
  | code (body : CodeOf α)
  | stackMapTable (frames : List StackFrame)
  | lineNumberTable (entries : List LineEntry)
  | localVariableTable (entries : List VariableEntry)
  | localVariableTypeTable (entries : List VariableEntry)
  | visibleAnnotations (annotations : List Annotation)
  | invisibleAnnotations (annotations : List Annotation)
  /-- Type annotations hold offsets into the code when they belong to a method body. -/
  | visibleTypeAnnotations
  | invisibleTypeAnnotations
  | signature (index : UInt16)
  | sourceFile (index : UInt16)
  | other (name : String)
deriving Repr, Inhabited

/-- An attribute: where it was read, and what it says. -/
structure Attribute where
  name : UInt16
  span : Span
  content : ContentOf Attribute
deriving Inhabited

/-- A method body. -/
abbrev Code := CodeOf Attribute

/-- What an attribute says. -/
abbrev Content := ContentOf Attribute

end AdviceWeaver

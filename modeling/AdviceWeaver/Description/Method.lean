import AdviceWeaver.ClassFile.Basic
import AdviceWeaver.Description.Name

/-!
# Descriptions of methods

What matchers see of a method: its names, flags and annotations, and the source-level names of the
types in its descriptor. A descriptor that breaks off or holds an unknown type yields the parameters
up to there.
-/

namespace AdviceWeaver

/-- A method. Annotations are binary names of annotation types. -/
structure MethodDescription where
  declaringType : String
  name : String
  descriptor : String
  modifiers : UInt16
  annotations : List String
deriving DecidableEq, Repr, Inhabited

/-! ### Descriptors -/

namespace Descriptor

/-- The source-level names of the types that one letter stands for. -/
def baseName : Char → Option String
  | 'B' => some "byte"
  | 'C' => some "char"
  | 'D' => some "double"
  | 'F' => some "float"
  | 'I' => some "int"
  | 'J' => some "long"
  | 'S' => some "short"
  | 'Z' => some "boolean"
  | 'V' => some "void"
  | _ => none

/-- The type at the front of a descriptor that is no array, and what follows it. -/
def nextElement : List Char → Option (String × List Char)
  | [] => none
  | 'L' :: rest => do
    let (name, tail) ← Text.splitFirst ';' rest
    return (binaryName (String.ofList name), tail)
  | c :: rest => do
    let name ← baseName c
    return (name, rest)

/-- The type at the front of a descriptor, and what follows it. Every dimension of an array adds a
pair of brackets. -/
def nextType (cs : List Char) : Option (String × List Char) := do
  let (name, tail) ← nextElement (cs.dropWhile (· = '['))
  let brackets := (cs.takeWhile (· = '[')).flatMap fun _ => ['[', ']']
  return (String.ofList (name.toList ++ brackets), tail)

/-- What is behind a separator is shorter than the whole. -/
theorem length_splitFirst {separator : Char} {cs front back : List Char}
    (h : Text.splitFirst separator cs = some (front, back)) : back.length < cs.length := by
  unfold Text.splitFirst at h
  split at h
  · cases h
  · next hdrop =>
    cases h
    have := (List.dropWhile_suffix (· ≠ separator) (l := cs)).length_le
    simp only [hdrop, List.length_cons] at this
    omega

/-- Reading an element of an array takes at least one character. -/
theorem length_nextElement {cs tail : List Char} {name : String}
    (h : nextElement cs = some (name, tail)) : tail.length < cs.length := by
  unfold nextElement at h
  split at h
  · cases h
  · next rest =>
    obtain ⟨⟨f, b⟩, hsplit, heq⟩ := Option.bind_eq_some_iff.1 h
    cases heq
    have := length_splitFirst hsplit
    simp only [List.length_cons]
    omega
  · obtain ⟨n, -, heq⟩ := Option.bind_eq_some_iff.1 h
    cases heq
    simp

/-- A type takes at least one character. -/
theorem length_nextType {cs tail : List Char} {name : String}
    (h : nextType cs = some (name, tail)) :
    tail.length < cs.length := by
  obtain ⟨⟨n, t⟩, hnext, heq⟩ := Option.bind_eq_some_iff.1 h
  cases heq
  have := length_nextElement hnext
  have := (List.dropWhile_suffix (· = '[') (l := cs)).length_le
  omega

/-- The types up to a closing parenthesis or to where none can be read. -/
def typesUntilClose (cs : List Char) : List String :=
  if cs.head? = some ')' then []
  else
    match _h : nextType cs with
    | none => []
    | some (name, tail) => name :: typesUntilClose tail
termination_by cs.length
decreasing_by exact length_nextType _h

end Descriptor

namespace MethodDescription

def isConstructor (m : MethodDescription) : Bool :=
  m.name = "<init>"

def isTypeInitializer (m : MethodDescription) : Bool :=
  m.name = "<clinit>"

/-- Neither constructor nor type initializer. -/
def isMethod (m : MethodDescription) : Bool :=
  !m.isConstructor && !m.isTypeInitializer

/-- The source-level names of the parameter types. -/
def parameterTypes (m : MethodDescription) : List String :=
  match m.descriptor.toList with
  | '(' :: rest => Descriptor.typesUntilClose rest
  | _ => []

/-- The source-level name of the return type, which stands behind the last closing parenthesis;
empty if there is none. -/
def returnType (m : MethodDescription) : String :=
  ((do
    let (_, tail) ← Text.splitLast ')' m.descriptor.toList
    let (name, _) ← Descriptor.nextType tail
    return name) : Option String).getD ""

/-- The text of a method in messages. -/
def render (m : MethodDescription) : String :=
  m.declaringType ++ "#" ++ m.name ++ m.descriptor

end MethodDescription

end AdviceWeaver

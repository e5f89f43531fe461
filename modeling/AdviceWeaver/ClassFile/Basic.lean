import AdviceWeaver.ClassFile.Attribute
import AdviceWeaver.ClassFile.Constant

/-!
# Class files

A class file as instrumentation sees it: the constant pool, the class's own names, its methods and
its attributes. Fields are read over but not kept, since nothing is ever done to them.
-/

namespace AdviceWeaver

/-! ### Access flags -/

namespace Access

def isPublic : UInt16 := 0x0001
def isStatic : UInt16 := 0x0008
def isFinal : UInt16 := 0x0010
def isNative : UInt16 := 0x0100
def isInterface : UInt16 := 0x0200
def isAbstract : UInt16 := 0x0400
def isSynthetic : UInt16 := 0x1000
def isAnnotationType : UInt16 := 0x2000

/-- Whether `flags` has the flag `flag`. -/
def has (flags flag : UInt16) : Bool :=
  flags &&& flag != 0

end Access

/-- A method: its flags, names by constant index, and attributes. -/
structure MethodInfo where
  access : UInt16
  name : UInt16
  descriptor : UInt16
  attributes : List Attribute
deriving Inhabited

/-- A class file; `poolEnd` is the offset just behind its last constant. -/
structure ClassFile where
  minorVersion : UInt16
  majorVersion : UInt16
  pool : ConstantPool
  poolEnd : Nat
  access : UInt16
  thisClass : UInt16
  superClass : UInt16
  interfaces : List UInt16
  methods : List MethodInfo
  attributes : List Attribute
deriving Inhabited

namespace MethodInfo

/-- The body of a method and the attribute that holds it; none for a method without code. -/
def code? (m : MethodInfo) : Option (Attribute × Code) :=
  m.attributes.findSome? fun a =>
    match a.content with
    | .code body => some (a, body)
    | _ => none

end MethodInfo

namespace ClassFile

/-- The internal name of the class. -/
def className (c : ClassFile) : Except FormatError String :=
  c.pool.getClassName c.thisClass

/-- The internal name of the super class; the root of the hierarchy has none. -/
def superClassName (c : ClassFile) : Except FormatError (Option String) :=
  if c.superClass = 0 then .ok none else some <$> c.pool.getClassName c.superClass

/-- The internal names of the interfaces. -/
def interfaceNames (c : ClassFile) : Except FormatError (List String) :=
  c.interfaces.mapM c.pool.getClassName

/-- The name inside an object descriptor; any other text stands for itself. -/
def stripObjectDescriptor (descriptor : String) : String :=
  match descriptor.toList with
  | 'L' :: rest => if rest.getLast? = some ';' then String.ofList rest.dropLast else descriptor
  | _ => descriptor

/-- The annotations that an attribute holds, visible at run time or not. -/
def annotationsOf (a : Attribute) : List Annotation :=
  match a.content with
  | .visibleAnnotations annotations | .invisibleAnnotations annotations => annotations
  | _ => []

/-- The internal names of the annotation types among `attributes`. -/
def annotationTypes (c : ClassFile) (attributes : List Attribute) :
    Except FormatError (List String) :=
  (attributes.flatMap annotationsOf).mapM fun a => stripObjectDescriptor <$> c.pool.getText a.type

end ClassFile

end AdviceWeaver

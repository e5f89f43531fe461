import AdviceWeaver.ClassFile.Reader
import AdviceWeaver.Description.Method
import AdviceWeaver.Text.Quoted

/-!
# Descriptions of types

What matchers see of a class, an interface or an annotation type. It is made from a class file,
since the class need not exist yet when it is looked at. Super types are given by name; `pool` says
where their names can be looked up.
-/

namespace AdviceWeaver

/-- The number of a type pool. -/
abbrev PoolId := Nat

/-- A type. All names are binary names. -/
structure TypeDescription where
  name : String
  superClass : Option String
  interfaces : List String
  modifiers : UInt16
  annotations : List String
  methods : List MethodDescription
  pool : Option PoolId
deriving DecidableEq, Repr, Inhabited

namespace TypeDescription

/-- A public class without members, right below the root of the hierarchy. -/
def ofName (name : String) : TypeDescription where
  name
  superClass := if name = rootClass then none else some rootClass
  interfaces := []
  modifiers := Access.isPublic
  annotations := []
  methods := []
  pool := none

/-- The description of a method of a class. -/
def describeMethod (c : ClassFile) (declaringType : String) (m : MethodInfo) :
    Except FormatError MethodDescription := do
  let annotations ← c.annotationTypes m.attributes
  let name ← c.pool.getText m.name
  let descriptor ← c.pool.getText m.descriptor
  return { declaringType, name, descriptor, modifiers := m.access,
           annotations := annotations.map binaryName }

/-- The description of a class file. -/
def ofClassFile (c : ClassFile) : Except FormatError TypeDescription := do
  let name := binaryName (← c.className)
  let methods ← c.methods.mapM (describeMethod c name)
  let superClass ← c.superClassName
  let interfaces ← c.interfaceNames
  let annotations ← c.annotationTypes c.attributes
  return { name, superClass := superClass.map binaryName, interfaces := interfaces.map binaryName,
           modifiers := c.access, annotations := annotations.map binaryName, methods, pool := none }

/-- The description of the class in a byte string. -/
def read (bytes : Bytes) : Except FormatError TypeDescription := do
  ofClassFile (← ClassFile.read bytes)

/-- The names that a type extends or implements, the super class first. -/
def superNames (t : TypeDescription) : List String :=
  t.superClass.toList ++ t.interfaces

def isInterface (t : TypeDescription) : Bool :=
  Access.has t.modifiers Access.isInterface

def isAnnotationType (t : TypeDescription) : Bool :=
  Access.has t.modifiers Access.isAnnotationType

def isAbstract (t : TypeDescription) : Bool :=
  Access.has t.modifiers Access.isAbstract

/-- A type with its fields; of its methods only the number is shown. -/
def debug (t : TypeDescription) : String :=
  Text.showRecord "TypeDescription"
    [("name", Text.quote t.name),
     ("super_class", Text.showOption Text.quote t.superClass),
     ("interfaces", Text.showList Text.quote t.interfaces),
     ("modifiers", toString t.modifiers.toNat),
     ("methods", toString t.methods.length)]

end TypeDescription

end AdviceWeaver

import AdviceWeaver.Hosting.Host

/-!
# A host in memory

A host whose classes and class loaders are data. It follows the contract of hosts to the letter, and
can be told to refuse calls. Loaders know their own classes only and never ask their parents; chains
of parents may be cyclic.
-/

namespace AdviceWeaver

/-- A class loader as data. -/
structure MemoryLoader where
  name : String
  description : LoaderDescription
  parent : Option LoaderId
  /-- Class files by internal name. -/
  classes : List (String × Bytes)
  canLoadFails : Bool
  parentFails : Bool
  classFileFails : Bool
deriving Repr, Inhabited

/-- A class that was defined. -/
structure MemoryClass where
  /-- The internal name. -/
  name : String
  loader : Option LoaderId
  initial : Bytes
  current : Bytes
  modifiable : Bool
deriving Repr, Inhabited

/-- Whether the transformers left their mark on a class. -/
def MemoryClass.isChanged (c : MemoryClass) : Bool :=
  c.current ≠ c.initial

/-- The ways in which the host refuses calls. -/
structure MemoryFaults where
  noRetransform : Bool
  /-- Calls for more than one class are refused. -/
  failBatches : Bool
  /-- Binary names of classes that cannot be transformed again. -/
  failClasses : List String
  loadedError : Option String
deriving DecidableEq, Repr, Inhabited

/-- No calls are refused. -/
def MemoryFaults.none : MemoryFaults := ⟨false, false, [], .none⟩

/-- The host with its loaders and its classes, and what was asked of it. -/
structure MemoryHost where
  loaders : Array MemoryLoader
  /-- In the order of their definition. -/
  classes : Array MemoryClass
  transformers : List Transformer
  faults : MemoryFaults
  /-- The number of classes in each call for retransformation, the latest first. -/
  calls : List Nat
  redefinitions : Nat

namespace MemoryHost

/-- A host without classes. -/
def new (loaders : Array MemoryLoader) : MemoryHost :=
  ⟨loaders, #[], [], .none, [], 0⟩

/-- The number of a loader. -/
def loaderId? (h : MemoryHost) (name : String) : Option LoaderId :=
  h.loaders.findIdx? fun l => l.name = name

/-- The classes that the transformers left their mark on. -/
def changed (h : MemoryHost) : List MemoryClass :=
  h.classes.toList.filter MemoryClass.isChanged

/-! ### Loaders -/

/-- The loader of a number. -/
def loader (l : LoaderId) : Act MemoryHost MemoryLoader :=
  return ((← Act.world).loaders[l]?).getD default

/-- How the loaders of the host are asked. -/
def loaderOps : LoaderOps MemoryHost where
  describe l := return (← loader l).description
  parent l := do
    let found ← loader l
    return if found.parentFails then .error (.exception "getParent") else .ok found.parent
  canLoad l name := do
    let found ← loader l
    return if found.canLoadFails then .error (.exception "loadClass")
      else .ok (found.classes.lookup (internalName name)).isSome
  classFile l name := do
    let found ← loader l
    Act.note (.text (found.name ++ ":" ++ name))
    return if found.classFileFails then .error (.other (found.name ++ " is broken"))
      else .ok (found.classes.lookup name)
  release _ := return ()
  load _ := return none
  extent h l := ((h.loaders[l]?).map fun found => found.classes.length).getD 0

/-- The description of a loader. -/
def describeLoader (h : MemoryHost) (l : Option LoaderId) : LoaderDescription :=
  match l with
  | some l => ((h.loaders[l]?).getD default).description
  | none => .bootstrap

/-! ### Classes -/

/-- Passes the initial form of a class through the transformers. -/
def transformAnew (c : MemoryClass) (redefining : Bool) : Act MemoryHost Bytes := do
  let transformers := (← Act.world).transformers
  let out ← Transformer.transformAll loaderOps ⟨some c.name, c.loader, redefining, c.initial⟩
    transformers
  return out.getD c.initial

/-- Defines a class; the result is the class as it is then. -/
def define (name : String) (loader : Option LoaderId) (bytes : Bytes) (modifiable : Bool) :
    Act MemoryHost MemoryClass := do
  let c : MemoryClass := ⟨name, loader, bytes, bytes, modifiable⟩
  let c ← if modifiable then
      pure { c with current := ← transformAnew c false }
    else pure c
  Act.modifyWorld fun h => { h with classes := h.classes.push c }
  return c

/-- Transforms classes again until one refuses. -/
def retransformEach : List LoadedClass → Act MemoryHost (Except HostError Unit)
  | [] => return .ok ()
  | l :: rest => do
    let h ← Act.world
    match h.classes[l.handle]? with
    | none => retransformEach rest
    | some c =>
      let name := binaryName c.name
      if h.faults.failClasses.contains name then
        return .error (.retransform name "unmodifiable class")
      let current ← transformAnew c true
      Act.modifyWorld fun h => { h with
        classes := h.classes.modify l.handle fun c => { c with current }
        redefinitions := h.redefinitions + 1 }
      retransformEach rest

/-- How the host is called. There is one host, whatever its number. -/
def hostOps : HostOps MemoryHost where
  addTransformer _ t :=
    Act.modifyWorld fun h => { h with transformers := h.transformers ++ [t] }
  removeTransformer _ t := do
    let (kept, found) := t.remove (← Act.world).transformers
    Act.modifyWorld fun h => { h with transformers := kept }
    return found
  supportsRetransform _ := return !(← Act.world).faults.noRetransform
  loadedClasses _ := do
    let h ← Act.world
    match h.faults.loadedError with
    | some message => return .error (.toolInterface message)
    | none =>
      return .ok (h.classes.toList.zipIdx.map fun (c, i) =>
        ⟨binaryName c.name, h.describeLoader c.loader, c.modifiable, i⟩)
  retransform _ classes := do
    Act.modifyWorld fun h => { h with calls := classes.length :: h.calls }
    if (← Act.world).faults.failBatches && classes.length > 1 then
      return .error (.toolInterface "JVMTI_ERROR_INVALID_CLASS")
    retransformEach classes

end MemoryHost

end AdviceWeaver

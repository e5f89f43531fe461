import AdviceWeaver.ClassFile.Constant
import AdviceWeaver.Weaving.Plan
import AdviceWeaver.Weaving.Error

/-!
# Extending a constant pool

Hook calls need constants that a class does not have. They are appended behind the ones it has, so
that no index in use changes its meaning, and each constant is appended once however often it is
asked for.

A pool has at most 65535 slots counted with the unused slot 0, so the highest index that can be
handed out is 65534. The text of a constant is written as plain UTF-8, which is what the format asks
for as long as it holds neither NUL nor a character outside the basic plane.
-/

namespace AdviceWeaver

/-- Constants to be appended to a pool. -/
structure PoolExtension where
  /-- The next free index. -/
  next : Nat
  /-- What was appended, and where, the latest first. -/
  appended : List (Constant × UInt16)
deriving Repr, Inhabited

namespace PoolExtension

/-- Nothing appended yet to a pool with `count` slots. -/
def start (count : UInt16) : PoolExtension :=
  ⟨count.toNat, []⟩

/-- The number of slots of the pool with what was appended. -/
def count (x : PoolExtension) : UInt16 :=
  UInt16.ofNat x.next

/-- The octets to append. -/
def encode (x : PoolExtension) : Bytes :=
  x.appended.reverse.flatMap fun (c, _) => c.encode

/-- Whether a text can be written as plain UTF-8. -/
def isEncodable (text : String) : Bool :=
  text.utf8ByteSize ≤ 65535 && text.toList.all fun c => c != '\x00' && c.toNat ≤ 0xFFFF

/-- The index of a constant, which is appended if it is not there. -/
def intern (c : Constant) : StateT PoolExtension (Except WeaveError) UInt16 := fun x =>
  match x.appended.lookup c with
  | some index => .ok (index, x)
  | none =>
    if x.next < 65535 then
      let index := UInt16.ofNat x.next
      .ok (index, ⟨x.next + 1, (c, index) :: x.appended⟩)
    else .error .poolFull

/-- The index of a text. -/
def internText (text : String) : StateT PoolExtension (Except WeaveError) UInt16 :=
  if isEncodable text then intern (.utf8 text) else throw (.unencodable text)

/-- The index of the reference to a static hook method of a class. -/
def internMethod (hookClass name : String) : StateT PoolExtension (Except WeaveError) UInt16 := do
  let owner ← intern (.classInfo (← internText hookClass))
  let nameAndType ← intern (.nameAndType (← internText name) (← internText Hook.descriptor))
  intern (.methodRef owner nameAndType)

end PoolExtension

end AdviceWeaver

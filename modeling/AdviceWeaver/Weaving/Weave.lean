import AdviceWeaver.Bytecode.Relocation
import AdviceWeaver.ClassFile.Reader
import AdviceWeaver.Weaving.PoolExtension

/-!
# Weaving

`weave` carries out a plan on a class: it appends the constants that the hook calls need, rebuilds
the bodies of the planned methods, and puts the new bodies where the old ones were. Every other
octet of the class is kept in its place, so that the tables of fields, methods and attributes keep
their shape.
-/

namespace AdviceWeaver

/-- A new code attribute for a span of the class file. -/
structure Splice where
  span : Span
  octets : Bytes
deriving Repr, Inhabited

/-- The hooks of a method as constants: entered in the order of the list, left in the reverse
order. -/
def hookRefs (hooks : List Hook) : StateT PoolExtension (Except WeaveError) HookRefs := do
  let enter ← (hooks.filter Hook.enter).mapM fun h =>
    PoolExtension.internMethod h.hookClass Hook.enterName
  let exit ← (hooks.reverse.filter Hook.exit).mapM fun h =>
    PoolExtension.internMethod h.hookClass Hook.exitName
  return ⟨enter, exit⟩

/-- The splice for one method of the plan; none if it has no code or no hook is to be called. -/
def spliceMethod (bytes : Bytes) (methods : Array MethodInfo) (entry : Nat × List Hook) :
    StateT PoolExtension (Except WeaveError) (Option Splice) := do
  let (index, hooks) := entry
  let some method := methods[index]? | throw (.noSuchMethod index)
  let some (a, body) := method.code? | return none
  let refs ← hookRefs hooks
  if refs.isEmpty then return none
  let content ← body.insertHooks bytes refs
  return some ⟨a.span, encodeAttribute a.name content⟩

/-- The octets from `at_` on, which `rest` holds, with splices put in, which are in ascending
order. -/
def applySplices (at_ : Nat) (rest : Bytes) : List Splice → Bytes
  | [] => rest
  | s :: splices =>
    rest.take (s.span.start - at_) ++ s.octets
      ++ applySplices s.span.stop (rest.drop (s.span.stop - at_)) splices

/-- The class with the plan carried out; none if nothing had to change. `bytes` is what the class
was read from. -/
def weave (bytes : Bytes) (c : ClassFile) (plan : WeavePlan) :
    Except WeaveError (Option Bytes) := do
  let (splices, extension) ←
    (plan.entries.mapM (spliceMethod bytes c.methods.toArray)).run (.start c.pool.count)
  match splices.filterMap id with
  | [] => return none
  | splices =>
    return some (Bytes.slice bytes 0 8 ++ Bytes.ofUInt16 extension.count
      ++ Bytes.slice bytes 10 c.poolEnd ++ extension.encode
      ++ applySplices c.poolEnd (bytes.drop c.poolEnd) splices)

end AdviceWeaver

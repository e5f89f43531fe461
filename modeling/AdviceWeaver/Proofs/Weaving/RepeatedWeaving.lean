import AdviceWeaver.Proofs.Weaving.HookInsertions
import AdviceWeaver.Proofs.Weaving.Plans
import AdviceWeaver.Proofs.Weaving.WovenClass

/-!
# Weaving a class again

A class that was woven is woven by another plan. The bodies are then those that the class has when it
is woven once, each method receiving the hooks of the later plan in front of those of the earlier
one: the later hooks stand outside. Both classes have the constants of the first one, and hooks are
called through constants of their own, which have other indexes but the same names.

An instruction of the class that calls a method by an index that the class does not have is left as
it is, and calls whatever stands there in the end (`ClassFile.weave_dangling`).

## Main results

* `MethodInfo.exists_rebuilt_twice` — what two plans make of a body.
* `ClassFile.weave_nests` — weaving twice is weaving once, the later hooks being outermost.
-/

namespace AdviceWeaver

/-! ### Bodies that nothing was put into -/

/-- The body `body'` has the instructions, handlers and stack map frames of `body`. -/
structure Unchanged (body body' : Code) : Prop where
  code : body'.code = body.code
  handlers : body'.handlers = body.handlers
  frames : frameTables body'.attributes = frameTables body.attributes

/-- A body that is unchanged twice is unchanged. -/
theorem Unchanged.trans {body body' body'' : Code} (h : Unchanged body body')
    (h' : Unchanged body' body'') : Unchanged body body'' :=
  ⟨h'.code.trans h.code, h'.handlers.trans h.handlers, h'.frames.trans h.frames⟩

/-- The same attributes have the same stack map frames. -/
theorem Attribute.Same.frameTables_eq {list list' : List Attribute}
    (h : List.Forall₂ Attribute.Same list list') : frameTables list' = frameTables list := by
  induction h with
  | nil => rfl
  | cons hsame _ ih => rw [frameTables_cons, frameTables_cons, hsame.frames?_eq, ih]

/-- An attribute that says the same as one with a body has the body. -/
theorem Attribute.Same.unchanged {a a' : Attribute} {body : Code} (h : a.Same a')
    (hbody : a.content = .code body) : ∃ body', a'.content = .code body' ∧ Unchanged body body' := by
  cases h with
  | @code name span span' body₀ body' heq hattributes =>
    cases hbody
    have hcode := congrArg CodeOf.code heq
    have hhandlers := congrArg CodeOf.handlers heq
    exact ⟨body', rfl, hcode.symm, hhandlers.symm, Attribute.Same.frameTables_eq hattributes⟩
  | other hother => exact absurd hbody (hother body)

namespace MethodInfo

variable {m m' : MethodInfo} {a : Attribute} {body : Code}

/-- A method has no code exactly if none of its attributes is one. -/
theorem code?_eq_none_iff :
    m.code? = none ↔ ∀ a ∈ m.attributes, ∀ body, a.content ≠ .code body := by
  rw [code?, List.findSome?_eq_none_iff]
  constructor
  · intro h a ha body hbody
    have hnone := h a ha
    rw [hbody] at hnone
    cases hnone
  · intro h a ha
    split
    · next body hbody => exact absurd hbody (h a ha body)
    · rfl

/-- The same method has no code either. -/
theorem Same.code?_eq_none (h : m.Same m') (hcode : m.code? = none) : m'.code? = none := by
  rw [code?_eq_none_iff] at hcode ⊢
  intro a' ha'
  obtain ⟨a, ha, hsame⟩ := exists_of_forall₂_right h.attributes ha'
  exact hsame.not_code_iff.2 (hcode a ha)

/-- The same method has the same instructions, handlers and frames. -/
theorem Same.unchanged (h : m.Same m') (hcode : m.code? = some (a, body)) :
    ∃ a' body', m'.code? = some (a', body') ∧ Unchanged body body' := by
  obtain ⟨before, after, hsplit, hbody, hbefore⟩ := code?_eq_some_iff.1 hcode
  have hattributes := h.attributes
  rw [hsplit] at hattributes
  obtain ⟨before', rest, hsplit', hbefore', hrest⟩ := exists_of_forall₂_append hattributes
  obtain ⟨a', after', hsame, -, rfl⟩ := List.forall₂_cons_left_iff.1 hrest
  obtain ⟨body', hbody', hunchanged⟩ := hsame.unchanged hbody
  refine ⟨a', body', code?_eq_some_iff.2 ⟨before', after', hsplit', hbody', fun b' hb' => ?_⟩,
    hunchanged⟩
  obtain ⟨b, hb, hbb'⟩ := exists_of_forall₂_right hbefore' hb'
  exact hbb'.not_code_iff.2 (hbefore b hb)

end MethodInfo

namespace Insertion.Rebuilds

variable {x : Insertion} {pairs : List Replacement} {old old' new new' : Code}

/-- What an unchanged body is rebuilt to, the body is rebuilt to. -/
theorem of_unchanged_old (h : x.Rebuilds pairs old' new) (hold : Unchanged old old') :
    x.Rebuilds pairs old new where
  decode_old := hold.code ▸ h.decode_old
  decode_new := h.decode_new
  skeleton := h.skeleton
  distances := h.distances
  tables := ⟨hold.handlers ▸ h.tables.handlers, hold.frames ▸ h.tables.frames⟩

/-- What the new body is unchanged to, the old one is rebuilt to. -/
theorem unchanged_new (h : x.Rebuilds pairs old new) (hnew : Unchanged new new') :
    x.Rebuilds pairs old new' where
  decode_old := h.decode_old
  decode_new := hnew.code ▸ h.decode_new
  skeleton := h.skeleton
  distances := h.distances
  tables := ⟨hnew.handlers ▸ h.tables.handlers, hnew.frames ▸ h.tables.frames⟩

end Insertion.Rebuilds

/-! ### Two plans for one method -/

/-- Hooks that ask for no call are not among those that do. -/
theorem Hook.filter_eq_nil_of_idle {hooks : List Hook} (hidle : hooks.any Hook.isActive = false) :
    hooks.filter Hook.enter = [] ∧ hooks.filter Hook.exit = [] := by
  simp only [List.any_eq_false, Hook.isActive, Bool.or_eq_true, not_or, Bool.not_eq_true] at hidle
  constructor
  · exact List.filter_eq_nil_iff.2 fun hook hmem => by simp [(hidle hook hmem).1]
  · exact List.filter_eq_nil_iff.2 fun hook hmem => by simp [(hidle hook hmem).2]

namespace MethodInfo

variable {pool pool' : ConstantPool} {inner outer hooks : List Hook} {m m' m'' : MethodInfo}
  {a : Attribute} {body : Code}

/-- A method whose hooks are carried out has its body rebuilt, if any of them asks for a call. -/
theorem Recoded.exists_rebuilt (h : m.Recoded pool hooks m') (hcode : m.code? = some (a, body))
    (hactive : hooks.any Hook.isActive = true) :
    ∃ a' body' x pairs, m'.code? = some (a', body') ∧ Insertion.Meets x pool.Calls hooks
      ∧ x.Rebuilds pairs body body' := by
  obtain ⟨a', body', refs, pairs, hcode', hmeets, hreframed⟩ := h.body hcode hactive
  exact ⟨a', body', refs.insertion, pairs, hcode', hmeets.insertion, hreframed.rebuilds⟩

/-- A method for which no hook is active is recoded to an unchanged body. -/
theorem Recoded.unchanged (h : m.Recoded pool hooks m') (hcode : m.code? = some (a, body))
    (hidle : hooks.any Hook.isActive = false) :
    ∃ a' body', m'.code? = some (a', body') ∧ Unchanged body body' :=
  (h.same (.inr hidle)).unchanged hcode

/-- **Two plans** carried out one after the other rebuild a body by an insertion for the hooks of
both, the later ones being outermost. -/
theorem exists_rebuilt_twice (hfirst : m.Recoded pool inner m') (hsecond : m'.Recoded pool' outer m'')
    (hcalls : ∀ hookClass name index, pool.Calls hookClass name index →
      pool'.Calls hookClass name index)
    (hcode : m.code? = some (a, body)) (hactive : (outer ++ inner).any Hook.isActive = true) :
    ∃ a'' body'' x pairs, m''.code? = some (a'', body'')
      ∧ Insertion.Meets x pool'.Calls (outer ++ inner) ∧ x.Rebuilds pairs body body'' := by
  cases hinner : inner.any Hook.isActive with
  | false =>
    have houter : outer.any Hook.isActive = true := by
      simpa [List.any_append, hinner] using hactive
    obtain ⟨henter, hexit⟩ := Hook.filter_eq_nil_of_idle hinner
    obtain ⟨a', body', hcode', hunchanged⟩ := hfirst.unchanged hcode hinner
    obtain ⟨a'', body'', x, pairs, hcode'', hmeets, hrebuilds⟩ := hsecond.exists_rebuilt hcode' houter
    exact ⟨a'', body'', x, pairs, hcode'', hmeets.of_filter_eq (by simp [henter]) (by simp [hexit]),
      hrebuilds.of_unchanged_old hunchanged⟩
  | true =>
    obtain ⟨a', body', x, pairs, hcode', hmeets, hrebuilds⟩ := hfirst.exists_rebuilt hcode hinner
    have hmeets' := hmeets.imp hcalls
    cases houter : outer.any Hook.isActive with
    | false =>
      obtain ⟨henter, hexit⟩ := Hook.filter_eq_nil_of_idle houter
      obtain ⟨a'', body'', hcode'', hunchanged⟩ := hsecond.unchanged hcode' houter
      exact ⟨a'', body'', x, pairs, hcode'',
        hmeets'.of_filter_eq (by simp [henter]) (by simp [hexit]),
        hrebuilds.unchanged_new hunchanged⟩
    | true =>
      obtain ⟨a'', body'', y, pairs', hcode'', hmeets'', hrebuilds'⟩ :=
        hsecond.exists_rebuilt hcode' houter
      obtain ⟨both, hboth⟩ := hrebuilds.andThen hrebuilds' hmeets.isInert
      exact ⟨a'', body'', x.andThen y, both, hcode'', hmeets'.andThen hmeets'', hboth⟩

/-- The methods `m'` and `m''` came of `m` and have the same body: none if `m` has none, that of `m`
if no hook asks for a call, and else bodies that agree. -/
structure SameBody (calls : Instruction → Instruction → Prop) (hooks : List Hook)
    (m m' m'' : MethodInfo) : Prop where
  abstract : m.code? = none → m'.code? = none ∧ m''.code? = none
  idle {a : Attribute} {body : Code} : m.code? = some (a, body) →
    hooks.any Hook.isActive = false →
    ∃ a' body' a'' body'', m'.code? = some (a', body') ∧ m''.code? = some (a'', body'')
      ∧ Unchanged body body' ∧ Unchanged body body''
  active {a : Attribute} {body : Code} : m.code? = some (a, body) →
    hooks.any Hook.isActive = true →
    ∃ a' body' a'' body'', m'.code? = some (a', body') ∧ m''.code? = some (a'', body'')
      ∧ BodiesAgree calls body body' body''

end MethodInfo

/-! ### Two plans for one class -/

/-- Constants of the same slots are the same. -/
theorem ConstantPool.get_of_slots {pool pool' : ConstantPool}
    (hslots : ∀ {index}, index < pool.slots.size → pool'.slots[index]? = pool.slots[index]?)
    {index : UInt16} {k : Constant} (h : pool.get index = .ok k) : pool'.get index = .ok k := by
  obtain ⟨hne, hslot⟩ := get_eq_ok_iff.1 h
  obtain ⟨hlt, -⟩ := Array.getElem?_eq_some_iff.1 hslot
  exact get_eq_ok_iff.2 ⟨hne, (hslots hlt).trans hslot⟩

/-- A constant for a call still is one in a pool that has the constants of the first. -/
theorem ConstantPool.Calls.of_get {pool pool' : ConstantPool}
    (hget : ∀ {index k}, pool.get index = .ok k → pool'.get index = .ok k)
    {hookClass name : String} {index : UInt16} (h : pool.Calls hookClass name index) :
    pool'.Calls hookClass name index := by
  obtain ⟨owner, nameAndType, nameIndex, descriptorIndex, href, hclass, hnat, hname,
    hdescriptor⟩ := h
  have htext {index : UInt16} {text : String} (h : pool.getText index = .ok text) :
      pool'.getText index = .ok text :=
    ConstantPool.getText_eq_ok_iff.2 (hget (ConstantPool.getText_eq_ok_iff.1 h))
  have hclass' : pool'.getClassName owner = .ok hookClass := by
    obtain ⟨k, hk, hclass⟩ := except_bind_eq_ok.1 hclass
    refine except_bind_eq_ok.2 ⟨k, hget hk, ?_⟩
    cases k with
    | classInfo text => exact htext hclass
    | _ => cases hclass
  exact ⟨owner, nameAndType, nameIndex, descriptorIndex, hget href, hclass', hget hnat, htext hname,
    htext hdescriptor⟩

namespace ClassFile

/-- The classes `c'` and `c''` came of `c` and say the same: they have all constants of `c`, and every
method has the same body in both, as far as `plan` gives it hooks. -/
structure WovenAlike (plan : WeavePlan) (c c' c'' : ClassFile) : Prop where
  constants {index : UInt16} {k : Constant} : c.pool.get index = .ok k →
    c'.pool.get index = .ok k ∧ c''.pool.get index = .ok k
  length_methods : c'.methods.length = c.methods.length ∧ c''.methods.length = c.methods.length
  methods {index : Nat} {m m' m'' : MethodInfo} : c.methods[index]? = some m →
    c'.methods[index]? = some m' → c''.methods[index]? = some m'' →
    m.SameBody (SameCall c'.pool.Calls c''.pool.Calls) (plan.hooksOf index) m' m''

variable {bytes out₁ out₂ out₃ : Bytes} {c c₁ : ClassFile} {inner outer both : WeavePlan}

/-- **Weaving nests**: a class that is woven by one plan and then by another says the same as the
class woven once by the plan that gives every method the hooks of the later plan in front of those of
the earlier one. In each of the three weavings, 32 bits have to tell the lengths of the new code
attributes. -/
theorem weave_nests (hread : ClassFile.read bytes = .ok c) (hslots : c.pool.slots.size ≤ 65535)
    (htells : c.TellsLengths bytes inner) (hinner : weave bytes c inner = .ok (some out₁))
    (hread₁ : ClassFile.read out₁ = .ok c₁) (htells₁ : c₁.TellsLengths out₁ outer)
    (houter : weave out₁ c₁ outer = .ok (some out₂))
    (hplan : ∀ index, both.hooksOf index = outer.hooksOf index ++ inner.hooksOf index)
    (htells' : c.TellsLengths bytes both) (hboth : weave bytes c both = .ok (some out₃)) :
    ∃ c₂ c₃, ClassFile.read out₂ = .ok c₂ ∧ ClassFile.read out₃ = .ok c₃
      ∧ c.WovenAlike both c₂ c₃ := by
  obtain ⟨_, hread₁', hfirst⟩ := exists_recoded hread hslots htells hinner
  obtain rfl := Except.ok.inj (hread₁.symm.trans hread₁')
  obtain ⟨c₂, hread₂, hsecond⟩ := exists_recoded hread₁ hfirst.size_slots_le htells₁ houter
  obtain ⟨c₃, hread₃, honce⟩ := exists_recoded hread hslots htells' hboth
  have hget {index : UInt16} {k : Constant} (h : c₁.pool.get index = .ok k) :
      c₂.pool.get index = .ok k :=
    ConstantPool.get_of_slots hsecond.slots h
  refine ⟨c₂, c₃, hread₂, hread₃, fun h => ⟨hget (ConstantPool.get_of_slots hfirst.slots h),
      ConstantPool.get_of_slots honce.slots h⟩,
    ⟨hsecond.length_methods.trans hfirst.length_methods, honce.length_methods⟩,
    fun {index m m₂ m₃} hm hm₂ hm₃ => ?_⟩
  have hlt : index < c₁.methods.length := hfirst.length_methods ▸ (List.getElem?_eq_some_iff.1 hm).1
  obtain ⟨m₁, hm₁⟩ : ∃ m₁, c₁.methods[index]? = some m₁ := ⟨_, List.getElem?_eq_getElem hlt⟩
  have hm₁' := hfirst.recoded hm hm₁
  have hm₂' := hsecond.recoded hm₁ hm₂
  have hm₃' := honce.recoded hm hm₃
  -- A method without code, one with code but no hook, and one with hooks.
  refine ⟨fun hcode => ?_, fun hcode hidle => ?_, fun hcode hactive => ?_⟩
  · have hcode₁ := (hm₁'.same (.inl hcode)).code?_eq_none hcode
    exact ⟨(hm₂'.same (.inl hcode₁)).code?_eq_none hcode₁,
      (hm₃'.same (.inl hcode)).code?_eq_none hcode⟩
  · obtain ⟨a₃, body₃, hcode₃, hunchanged₃⟩ := hm₃'.unchanged hcode hidle
    rw [hplan, List.any_append, Bool.or_eq_false_iff] at hidle
    obtain ⟨a₁, body₁, hcode₁, hunchanged₁⟩ := hm₁'.unchanged hcode hidle.2
    obtain ⟨a₂, body₂, hcode₂, hunchanged₂⟩ := hm₂'.unchanged hcode₁ hidle.1
    exact ⟨a₂, body₂, a₃, body₃, hcode₂, hcode₃, hunchanged₁.trans hunchanged₂, hunchanged₃⟩
  · obtain ⟨a₃, body₃, y, pairs', hcode₃, hmeets', hrebuilds'⟩ := hm₃'.exists_rebuilt hcode hactive
    rw [hplan] at hactive hmeets'
    obtain ⟨a₂, body₂, x, pairs, hcode₂, hmeets, hrebuilds⟩ :=
      MethodInfo.exists_rebuilt_twice hm₁' hm₂' (fun _ _ _ => ConstantPool.Calls.of_get hget) hcode
        hactive
    exact ⟨a₂, body₂, a₃, body₃, hcode₂, hcode₃,
      hrebuilds.agree hrebuilds' (hmeets.alike hmeets') hmeets.tidy hmeets'.tidy⟩

/-! ### Classes that are woven twice -/

/-- A class that is woven twice, and woven once by the plan for both, with the octets that are
written and the classes that are read. -/
structure Weavings where
  base : ClassFile
  innerOctets : Bytes
  inner : ClassFile
  twiceOctets : Bytes
  twice : ClassFile
  onceOctets : Bytes
  once : ClassFile

/-- Weaves a class twice and once; none if any weaving has nothing to do. -/
def weavings? (bytes : Bytes) (inner outer both : WeavePlan) : Option Weavings := do
  let c ← (ClassFile.read bytes).toOption
  let out₁ ← (weave bytes c inner).toOption.join
  let c₁ ← (ClassFile.read out₁).toOption
  let out₂ ← (weave out₁ c₁ outer).toOption.join
  let c₂ ← (ClassFile.read out₂).toOption
  let out₃ ← (weave bytes c both).toOption.join
  let c₃ ← (ClassFile.read out₃).toOption
  return ⟨c, out₁, c₁, out₂, c₂, out₃, c₃⟩

/-- Where all weavings can be made and a check holds of them, each of their steps succeeded. -/
theorem exists_of_weavings? {P : Weavings → Bool}
    (h : (weavings? bytes inner outer both).any P = true) :
    ∃ w, ClassFile.read bytes = .ok w.base ∧ weave bytes w.base inner = .ok (some w.innerOctets)
      ∧ ClassFile.read w.innerOctets = .ok w.inner
      ∧ weave w.innerOctets w.inner outer = .ok (some w.twiceOctets)
      ∧ ClassFile.read w.twiceOctets = .ok w.twice
      ∧ weave bytes w.base both = .ok (some w.onceOctets)
      ∧ ClassFile.read w.onceOctets = .ok w.once ∧ P w = true := by
  have hok {ε α : Type} {result : Except ε α} {a : α} :
      result.toOption = some a ↔ result = .ok a := by
    cases result <;> simp [Except.toOption]
  cases hw : weavings? bytes inner outer both with
  | none =>
    rw [hw] at h
    cases h
  | some w =>
    rw [hw] at h
    simp only [weavings?, Option.bind_eq_bind, Option.bind_eq_some_iff, hok,
      Option.join_eq_some_iff] at hw
    obtain ⟨c, hc, out₁, hout₁, c₁, hc₁, out₂, hout₂, c₂, hc₂, out₃, hout₃, c₃, hc₃, heq⟩ := hw
    obtain rfl := Option.some.inj heq
    exact ⟨⟨c, out₁, c₁, out₂, c₂, out₃, c₃⟩, hc, hout₁, hc₁, hout₂, hc₂, hout₃, hc₃, h⟩

/-- The plan with one hook for the first method. -/
def planFor (hookClass : String) : WeavePlan :=
  WeavePlan.empty.add 0 ⟨hookClass, true, true⟩

/-- The plan with two hooks for the first method. -/
def planForBoth (outer inner : String) : WeavePlan :=
  (planFor outer).add 0 ⟨inner, true, true⟩

/-- A method receives the outer hook and then the inner one. -/
theorem hooksOf_planForBoth (outer inner : String) (index : Nat) :
    (planForBoth outer inner).hooksOf index
      = (planFor outer).hooksOf index ++ (planFor inner).hooksOf index := by
  rw [planForBoth, WeavePlan.hooksOf_add, planFor, planFor, WeavePlan.hooksOf_add,
    WeavePlan.hooksOf_add]
  rfl

/-- Weaving the class twice puts one hook around the other. -/
theorem weave_nests_idle :
    ∃ w : Weavings, ClassFile.read idle = .ok w.base ∧ w.base.pool.slots.size ≤ 65535
      ∧ w.base.TellsLengths idle (planFor "H")
      ∧ weave idle w.base (planFor "H") = .ok (some w.innerOctets)
      ∧ ClassFile.read w.innerOctets = .ok w.inner
      ∧ w.inner.TellsLengths w.innerOctets (planFor "G")
      ∧ weave w.innerOctets w.inner (planFor "G") = .ok (some w.twiceOctets)
      ∧ (∀ index, (planForBoth "G" "H").hooksOf index
        = (planFor "G").hooksOf index ++ (planFor "H").hooksOf index)
      ∧ w.base.TellsLengths idle (planForBoth "G" "H")
      ∧ weave idle w.base (planForBoth "G" "H") = .ok (some w.onceOctets)
      ∧ ∃ c₂ c₃, ClassFile.read w.twiceOctets = .ok c₂ ∧ ClassFile.read w.onceOctets = .ok c₃
        ∧ w.base.WovenAlike (planForBoth "G" "H") c₂ c₃ := by
  have hwoven : (weavings? idle (planFor "H") (planFor "G") (planForBoth "G" "H")).any
      (fun w => w.base.pool.slots.size ≤ 65535 && w.innerOctets.length ≤ 4026531840) = true := by
    decide +kernel
  obtain ⟨w, hread, hinner, hread₁, houter, -, honce, -, hsmall⟩ := exists_of_weavings? hwoven
  rw [Bool.and_eq_true, decide_eq_true_eq, decide_eq_true_eq] at hsmall
  obtain ⟨hslots, hlength₁⟩ := hsmall
  have htells (plan : WeavePlan) : w.base.TellsLengths idle plan :=
    tellsLengths_of_length hread (by decide)
  have htells₁ : w.inner.TellsLengths w.innerOctets (planFor "G") :=
    tellsLengths_of_length hread₁ hlength₁
  exact ⟨w, hread, hslots, htells _, hinner, hread₁, htells₁, houter, hooksOf_planForBoth "G" "H",
    htells _, honce, weave_nests hread hslots (htells _) hinner hread₁ htells₁ houter
      (hooksOf_planForBoth "G" "H") (htells _) honce⟩

/-! ### Names that a class does not have -/

/-- A class `A` with one static method `m`, which calls a static method by an index behind the last
constant, and returns. -/
def dangling : Bytes :=
  [0xCA, 0xFE, 0xBA, 0xBE, 0, 0, 0, 0x34, 0, 6]
    ++ [1, 0, 1, 0x41, 7, 0, 1, 1, 0, 1, 0x6D, 1, 0, 3, 0x28, 0x29, 0x56]
    ++ [1, 0, 4, 0x43, 0x6F, 0x64, 0x65]
    ++ [0, 0x21, 0, 2, 0, 0, 0, 0, 0, 0, 0, 1, 0, 9, 0, 3, 0, 4, 0, 1]
    ++ [0, 5, 0, 0, 0, 16, 0, 0, 0, 0, 0, 0, 0, 4, 0xB8, 0, 11, 0xB1, 0, 0, 0, 0, 0, 0]

/-- The class and the name of the method that a constant refers to. -/
def methodName (pool : ConstantPool) (index : UInt16) : Except FormatError (String × String) := do
  match ← pool.get index with
  | .methodRef owner nameAndType =>
    match ← pool.get nameAndType with
    | .nameAndType name _ => return (← pool.getClassName owner, ← pool.getText name)
    | _ => throw (.badConstantIndex nameAndType)
  | _ => throw (.badConstantIndex index)

/-- The names of the static methods that a method of the class calls, in the order of its
instructions. -/
def calledNames (c : ClassFile) (index : Nat) : List (String × String) :=
  match c.methods[index]?.bind MethodInfo.code? with
  | none => []
  | some (_, body) =>
    match Body.decode body.code with
    | .error _ => []
    | .ok instructions => instructions.filterMap fun i =>
      match i with
      | .plain op [high, low] =>
        if op = Opcode.invokeStatic then (methodName c.pool (Bytes.toUInt16 high low)).toOption
        else none
      | _ => none

/-- **An index that the class does not have** is that of a hook in the end: of the earlier one when
the class is woven twice, and of the later one when it is woven once. So the names that are called
are not the same. -/
theorem weave_dangling :
    ∃ w : Weavings, ClassFile.read dangling = .ok w.base ∧ w.base.pool.slots.size ≤ 65535
      ∧ weave dangling w.base (planFor "H") = .ok (some w.innerOctets)
      ∧ ClassFile.read w.innerOctets = .ok w.inner
      ∧ weave w.innerOctets w.inner (planFor "G") = .ok (some w.twiceOctets)
      ∧ ClassFile.read w.twiceOctets = .ok w.twice
      ∧ (∀ index, (planForBoth "G" "H").hooksOf index
        = (planFor "G").hooksOf index ++ (planFor "H").hooksOf index)
      ∧ weave dangling w.base (planForBoth "G" "H") = .ok (some w.onceOctets)
      ∧ ClassFile.read w.onceOctets = .ok w.once
      ∧ w.twice.pool.slots.size ≤ 65535 ∧ w.once.pool.slots.size ≤ 65535
      ∧ w.twice.calledNames 0 = [("G", "onMethodEnter"), ("H", "onMethodEnter"),
        ("H", "onMethodEnter"), ("H", "onMethodExit"), ("G", "onMethodExit")]
      ∧ w.once.calledNames 0 = [("G", "onMethodEnter"), ("H", "onMethodEnter"),
        ("G", "onMethodEnter"), ("H", "onMethodExit"), ("G", "onMethodExit")] := by
  have hwoven : (weavings? dangling (planFor "H") (planFor "G") (planForBoth "G" "H")).any
      (fun w => w.base.pool.slots.size ≤ 65535 && w.twice.pool.slots.size ≤ 65535
        && w.once.pool.slots.size ≤ 65535
        && w.twice.calledNames 0 = [("G", "onMethodEnter"), ("H", "onMethodEnter"),
          ("H", "onMethodEnter"), ("H", "onMethodExit"), ("G", "onMethodExit")]
        && w.once.calledNames 0 = [("G", "onMethodEnter"), ("H", "onMethodEnter"),
          ("G", "onMethodEnter"), ("H", "onMethodExit"), ("G", "onMethodExit")]) = true := by
    decide +kernel
  obtain ⟨w, hread, hinner, hread₁, houter, hread₂, honce, hread₃, hnames⟩ :=
    exists_of_weavings? hwoven
  simp only [Bool.and_eq_true, decide_eq_true_eq] at hnames
  obtain ⟨⟨⟨⟨hbase, htwice⟩, honceSize⟩, htwiceNames⟩, honceNames⟩ := hnames
  exact ⟨w, hread, hbase, hinner, hread₁, houter, hread₂, hooksOf_planForBoth "G" "H", honce, hread₃,
    htwice, honceSize, htwiceNames, honceNames⟩

end ClassFile

end AdviceWeaver

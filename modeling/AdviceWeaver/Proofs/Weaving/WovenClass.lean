import AdviceWeaver.Proofs.Weaving.PlannedMethods

/-!
# Classes with a plan carried out

Weaving gives a class file again. It is the class it was, but for the bodies of the planned methods:
every constant keeps its index, and the constants that hook calls need come behind (`ClassFile.Woven`).
In the octets, nothing moves against anything else: a new count of constants stands in place of the
old one, the new constants stand behind the pool, and the new code attributes stand where the old ones
did (`ClassFile.WrittenOver`).

## Main results

* `ClassFile.read_weave` — what weaving writes is read as the class with the plan carried out.
-/

namespace AdviceWeaver

/-! ### What weaving does to a class -/

namespace ClassFile

/-- The class `c'` is `c` with a plan carried out. -/
structure Woven (plan : WeavePlan) (c c' : ClassFile) : Prop where
  minorVersion : c'.minorVersion = c.minorVersion
  majorVersion : c'.majorVersion = c.majorVersion
  access : c'.access = c.access
  thisClass : c'.thisClass = c.thisClass
  superClass : c'.superClass = c.superClass
  interfaces : c'.interfaces = c.interfaces
  /-- Every index that was there holds what it held. -/
  slots {index : Nat} : index < c.pool.slots.size → c'.pool.slots[index]? = c.pool.slots[index]?
  length_methods : c'.methods.length = c.methods.length
  methods {index : Nat} {m m' : MethodInfo} : c.methods[index]? = some m →
    c'.methods[index]? = some m' → m.Woven c'.pool (plan.hooksOf index) m'
  attributes : List.Forall₂ Attribute.Same c.attributes c'.attributes

/-- The class `c'` is `c` with a plan carried out, and what became of every body is told with its stack
map frames. -/
structure Recoded (plan : WeavePlan) (c c' : ClassFile) : Prop extends Woven plan c c' where
  size_slots : c.pool.slots.size ≤ c'.pool.slots.size
  size_slots_le : c'.pool.slots.size ≤ 65535
  recoded {index : Nat} {m m' : MethodInfo} : c.methods[index]? = some m →
    c'.methods[index]? = some m' → m.Recoded c'.pool (plan.hooksOf index) m'

/-- The code attribute that an entry of a plan replaces: that of its method, if any hook asks for a
call. -/
def target? (c : ClassFile) (entry : Nat × List Hook) : Option Attribute :=
  if entry.2.any Hook.isActive then (c.methods[entry.1]?.bind MethodInfo.code?).map Prod.fst
  else none

/-- The code attributes that a plan replaces. -/
def targets (c : ClassFile) (plan : WeavePlan) : List Attribute :=
  plan.entries.filterMap c.target?

/-- The octets `out` are those of the class, from which it was read, with another number of constants,
more constants behind the pool, and the targets of the plan replaced by code attributes of the same
name. -/
def WrittenOver (c : ClassFile) (plan : WeavePlan) (bytes out : Bytes) : Prop :=
  ∃ head count count' pool constants rest rest' splices,
    bytes = head ++ Bytes.ofUInt16 count ++ pool ++ rest
      ∧ out = head ++ Bytes.ofUInt16 count' ++ pool ++ constants ++ rest'
      ∧ c.poolEnd = (head ++ Bytes.ofUInt16 count ++ pool).length
      ∧ Spliced c.poolEnd rest rest' splices
      ∧ List.Forall₂
          (fun a s => s.span = a.span ∧ ∃ content, s.octets = encodeAttribute a.name content)
          (c.targets plan) splices

end ClassFile

/-! ### Splices and targets -/

/-- The splices for the entries of a plan replace its targets. -/
theorem forall₂_targets {bytes : Bytes} {x : PoolExtension} {c : ClassFile} {plan : WeavePlan}
    {results : List (Option Splice)}
    (h : List.Forall₂ (fun entry splice? => ∃ m, c.methods[entry.1]? = some m
      ∧ m.Splices bytes x entry.2 splice?) plan.entries results) :
    List.Forall₂
      (fun a s => s.span = a.span ∧ ∃ content, s.octets = encodeAttribute a.name content)
      (c.targets plan) (results.filterMap id) := by
  unfold ClassFile.targets
  generalize plan.entries = entries at h ⊢
  induction h with
  | nil => exact .nil
  | @cons entry splice? _ _ hfirst _ ih =>
    obtain ⟨m, hm, ⟨hnone, rfl⟩ | ⟨a, _, _, content, hcode, hactive, -, -, rfl⟩⟩ := hfirst
    · have htarget : c.target? entry = none := by
        obtain hnone | hnone := hnone <;> simp [ClassFile.target?, hm, hnone]
      rw [List.filterMap_cons_none htarget, List.filterMap_cons_none rfl]
      exact ih
    · have htarget : c.target? entry = some a := by
        simp only [ClassFile.target?, hm, hactive, if_true, Option.bind_some, hcode,
          Option.map_some]
      rw [List.filterMap_cons_some htarget]
      exact .cons ⟨rfl, content, rfl⟩ ih

/-! ### Carrying out a plan -/

section Members

variable {bytes rest : Bytes} {x : PoolExtension} {pool : ConstantPool} {c : ClassFile}
  {plan : WeavePlan} {results : List (Option Splice)} {depth : Nat}

/-- **The members of a class** are read back with all splices put in, from a pool that has the
constants of the class and those of the hook calls. -/
theorem Reader.takes_wovenMembers
    (hpool : ∀ {index text}, c.pool.getText index = .ok text → pool.getText index = .ok text)
    (hslots : ∀ {index}, index < c.pool.slots.size → pool.slots[index]? = c.pool.slots[index]?)
    (hsize : c.pool.slots.size ≤ pool.slots.size) (hsizeLe : pool.slots.size ≤ 65535)
    (hcalls : ∀ hookClass name index, x.Knows hookClass name index →
      pool.Calls hookClass name index)
    (hat : bytes.HasAt c.poolEnd rest)
    (h : (members depth c.minorVersion c.majorVersion c.pool c.poolEnd).Takes c.poolEnd rest c)
    (hresults : List.Forall₂ (fun entry splice? => ∃ m, c.methods[entry.1]? = some m
      ∧ m.Splices bytes x entry.2 splice?) plan.entries results) :
    ∃ rest', Spliced c.poolEnd rest rest' (results.filterMap id)
      ∧ ((∀ s ∈ results.filterMap id, s.TellsLength) → ∀ n poolEnd', rest'.length ≤ n →
        ∃ c', (members n c.minorVersion c.majorVersion pool poolEnd').Takes poolEnd' rest' c'
          ∧ c'.pool = pool ∧ c'.poolEnd = poolEnd' ∧ c.Recoded plan c') := by
  obtain ⟨interfaces, fields, _, each, list, rfl, hinterfaces, hfields, htable, heach, -⟩ :=
    takes_members_iff.1 h
  obtain ⟨hmany, methods, rfl, hmethods⟩ := (takes_counted_iff (definite_method c.pool _)).1 htable
  obtain ⟨methods', hspliced, hread⟩ := takes_plannedMethods hpool hcalls 0 hmethods
    hat.right.right.right.left.right (fun k => by rw [Nat.zero_add]) hresults plan.ascending
    fun _ _ => Nat.zero_le _
  have hcount : (Bytes.ofUInt16 (UInt16.ofNat c.methods.length)).length = 2 := rfl
  refine ⟨c.front ++ (interfaces ++ (fields ++ (Bytes.ofUInt16 (UInt16.ofNat c.methods.length)
    ++ methods' ++ each))), ?_, fun htells n poolEnd' hn => ?_⟩
  · refine .prepend _ (.prepend _ (.prepend _ ?_))
    rw [← List.append_nil (results.filterMap id)]
    exact .append (.prepend _ hspliced) (.copied _ _)
  · simp only [List.length_append, hcount] at hn
    obtain ⟨list', hfields'⟩ := takes_fields hpool hfields (n := n) (by omega)
      (poolEnd' + 6 + interfaces.length)
    obtain ⟨infos, hinfos, hlength, hrecoded⟩ := hread htells n
      (poolEnd' + 6 + interfaces.length + fields.length + 2) (by omega)
    have htable' : (counted (method pool n)).Takes
        (poolEnd' + 6 + interfaces.length + fields.length)
        (Bytes.ofUInt16 (UInt16.ofNat c.methods.length) ++ methods') infos :=
      (takes_counted_iff (definite_method pool n)).2
        ⟨hlength ▸ hmany, methods', hlength ▸ rfl, hinfos⟩
    obtain ⟨own, hown, hmoved⟩ := carries_attributes hpool depth n _
      (poolEnd' + 6 + interfaces.length + fields.length
        + (Bytes.ofUInt16 (UInt16.ofNat c.methods.length) ++ methods').length) each _ (by omega) heach
    refine ⟨{ c with pool, poolEnd := poolEnd', methods := infos, attributes := own },
      takes_members_iff.2 ⟨interfaces, fields, _, each, list', rfl,
        plain_u2.counted.portable hinterfaces, hfields', htable', hown, rfl, rfl, rfl, rfl⟩, rfl, rfl,
      ⟨rfl, rfl, rfl, rfl, rfl, rfl, hslots, hlength, fun {index m m'} hm hm' => ?_,
        Attribute.forall₂_same hmoved⟩, hsize,
      hsizeLe, fun {index m m'} hm hm' => ?_⟩
    all_goals
      have hindex := hrecoded index m m' hm hm'
      rw [Nat.zero_add] at hindex
    · exact hindex.toWoven
    · exact hindex

end Members

namespace ClassFile

variable {bytes out : Bytes} {c : ClassFile} {plan : WeavePlan}

/-- A class that was woven is its head, its new pool and its members with the new attributes in place.
-/
theorem weave_eq_some (h : weave bytes c plan = .ok (some out)) :
    ∃ results x, plan.entries.mapM (spliceMethod bytes c.methods.toArray) (.start c.pool.count)
        = .ok (results, x)
      ∧ out = Bytes.slice bytes 0 8 ++ Bytes.ofUInt16 x.count ++ Bytes.slice bytes 10 c.poolEnd
          ++ x.encode ++ applySplices c.poolEnd (bytes.drop c.poolEnd) (results.filterMap id) := by
  obtain ⟨⟨results, x⟩, hrun, h⟩ := except_bind_eq_ok.1 h
  refine ⟨results, x, hrun, ?_⟩
  dsimp only at h
  split at h
  · cases h
  · cases h
    rfl

/-- The 32 bits for the length of a code attribute can tell that of every one which a plan puts into the
class. -/
def TellsLengths (c : ClassFile) (bytes : Bytes) (plan : WeavePlan) : Prop :=
  ∀ results x, (plan.entries.mapM (spliceMethod bytes c.methods.toArray)).run (.start c.pool.count)
    = .ok (results, x) → ∀ s ∈ results.filterMap id, s.TellsLength

/-- The attribute that holds the body of a method was read from the class file. -/
theorem readFrom_of_code? (hread : ClassFile.read bytes = .ok c) {m : MethodInfo} (hm : m ∈ c.methods)
    {a : Attribute} {body : Code} (hcode : m.code? = some (a, body)) : a.ReadFrom bytes c.pool := by
  obtain ⟨before, after, hsplit, -, -⟩ := MethodInfo.code?_eq_some_iff.1 hcode
  have ha : a ∈ m.attributes := by
    rw [hsplit]
    exact List.mem_append_right _ List.mem_cons_self
  exact readFrom_of_hasAttribute hread (.inl ⟨m, hm, .here ha⟩)

/-- **Room for hooks.** 32 bits can tell the lengths of all code attributes if no method body takes more
than `2 ^ 32 - 2 ^ 28` octets before. -/
theorem tellsLengths_of_within (hread : ClassFile.read bytes = .ok c)
    (hsmall : ∀ m ∈ c.methods, m.Within 4026531840) : c.TellsLengths bytes plan := by
  intro results x hrun s hs
  obtain ⟨-, hresults⟩ := PoolExtension.mapM_spliceMethod_spec PoolExtension.sound_start hrun
  obtain ⟨splice?, hsplice, rfl⟩ := List.mem_filterMap.1 hs
  obtain ⟨entry, -, m, hm, hsplices⟩ := exists_of_forall₂_right hresults hsplice
  obtain ⟨-, hnone⟩ | ⟨a, body, refs, content, hcode, -, -, hcontent, heq⟩ := hsplices
  · cases hnone
  cases heq
  have hmem : m ∈ c.methods := List.mem_of_getElem? hm
  have hgrowth : (encodeAttribute a.name content).length ≤ a.extent + 268435456 :=
    (readFrom_of_code? hread hmem hcode).length_hooked_le (MethodInfo.content_of_code? hcode) hcontent
  have hle := hsmall m hmem a body hcode
  show (encodeAttribute a.name content).length < _
  omega

/-- 32 bits can tell the lengths of all code attributes in a class file that is no longer than
`2 ^ 32 - 2 ^ 28` octets. -/
theorem tellsLengths_of_length (hread : ClassFile.read bytes = .ok c)
    (hlength : bytes.length ≤ 4026531840) : c.TellsLengths bytes plan := by
  refine tellsLengths_of_within hread fun m hm a body hcode => ?_
  exact Nat.le_trans (readFrom_of_code? hread hm hcode).extent_le hlength

/-- What weaving writes stands over the octets of the class. It is read as the class with the plan
carried out, stack map frames included, if 32 bits can tell the lengths of the new code attributes. -/
theorem writtenOver_weave (hread : ClassFile.read bytes = .ok c) (hslots : c.pool.slots.size ≤ 65535)
    (h : weave bytes c plan = .ok (some out)) :
    c.WrittenOver plan bytes out
      ∧ (c.TellsLengths bytes plan → ∃ c', ClassFile.read out = .ok c' ∧ c.Recoded plan c') := by
  obtain ⟨results, x, hrun, hout⟩ := weave_eq_some h
  obtain ⟨count, pool, rest, trailing, heq, hpoolEnd, hpos, hmembers, hextend⟩ := of_read hread
  have hcount : c.pool.count.toNat = c.pool.slots.size :=
    UInt16.toNat_ofNat_of_lt' (Nat.lt_succ_of_le hslots)
  obtain ⟨hx, hresults⟩ : PoolExtension.Sound c.pool.slots.size x ∧ _ :=
    PoolExtension.mapM_spliceMethod_spec (hcount ▸ PoolExtension.sound_start) hrun
  have hnext : x.next = c.pool.slots.size + x.constants.length := by
    rw [hx.next, x.length_constants]
  have hlinked (k : Constant) (hk : k ∈ x.constants) : k.IsLinked := by
    obtain ⟨⟨k', index⟩, hmem, rfl⟩ := List.mem_map.1 hk
    exact hx.linked (List.mem_reverse.1 hmem)
  have hpool := hextend x.constants hlinked (hnext ▸ hx.next_le)
  have hat : bytes.HasAt c.poolEnd rest :=
    ⟨c.head ++ (Bytes.ofUInt16 count ++ pool), trailing, by simp [heq], by simp [hpoolEnd]; omega⟩
  obtain ⟨rest', hspliced, hmembers'⟩ := Reader.takes_wovenMembers
    (fun h => ConstantPool.getText_extend h) (fun h => ConstantPool.slots_extend h)
    (ConstantPool.size_slots_extend ▸ Nat.le_add_right ..)
    (ConstantPool.size_slots_extend ▸ hnext ▸ hx.next_le)
    (fun _ _ _ h => h.calls hx hpos) hat hmembers hresults
  have hspliced' : Spliced c.poolEnd (rest ++ trailing) (rest' ++ trailing)
      (results.filterMap id ++ []) :=
    hspliced.append (.copied _ trailing)
  rw [List.append_nil] at hspliced'
  -- The octets are cut where the class was read: at its count, behind its pool, and at its splices.
  have hhead : bytes.slice 0 8 = c.head :=
    Bytes.HasAt.slice_eq ⟨[], _, heq, rfl⟩
  have hbetween : bytes.slice 10 c.poolEnd = pool := by
    rw [hpoolEnd]
    exact Bytes.HasAt.slice_eq ⟨c.head ++ Bytes.ofUInt16 count, rest ++ trailing, by simp [heq], rfl⟩
  have hlength : c.poolEnd = (c.head ++ Bytes.ofUInt16 count ++ pool).length := by
    simp only [hpoolEnd, List.length_append, length_head, Bytes.length_ofUInt16]
  have hsplit : bytes = c.head ++ Bytes.ofUInt16 count ++ pool ++ (rest ++ trailing) := by
    simp [heq]
  have hbehind : bytes.drop c.poolEnd = rest ++ trailing := by
    rw [hsplit, hlength, List.drop_left]
  rw [hhead, hbetween, hbehind, hspliced'.eq_applySplices, PoolExtension.count, hnext,
    x.encode_eq] at hout
  refine ⟨⟨c.head, count, _, pool, _, rest ++ trailing, rest' ++ trailing, _, hsplit, hout, hlength,
    hspliced', forall₂_targets hresults⟩, fun htells => ?_⟩
  obtain ⟨c', hmembers', hpoolEq, hpoolEnd', hrecoded⟩ := hmembers' (htells results x hrun) out.length
    (8 + (Bytes.ofUInt16 (UInt16.ofNat (c.pool.slots.size + x.constants.length)) ++ pool
      ++ x.constants.flatMap Constant.encode).length)
    (by simp only [hout, List.length_append]; omega)
  refine ⟨c', ?_, hrecoded⟩
  have hhead' : c'.head = c.head := by
    rw [head, head, hrecoded.minorVersion, hrecoded.majorVersion]
  have hout' : out = c'.head ++ ((Bytes.ofUInt16 (UInt16.ofNat (c.pool.slots.size
      + x.constants.length)) ++ pool ++ x.constants.flatMap Constant.encode)
        ++ (rest' ++ trailing)) := by
    simp [hout, hhead']
  rw [← hrecoded.minorVersion, ← hrecoded.majorVersion, ← hpoolEq, ← hpoolEnd', hout'] at hmembers'
  rw [hout']
  exact read_of_parts (hpoolEq ▸ hpool) hpoolEnd' hmembers'

/-- What weaving writes is read as the class with the plan carried out, stack map frames included, if
32 bits can tell the lengths of the new code attributes. -/
theorem exists_recoded (hread : ClassFile.read bytes = .ok c) (hslots : c.pool.slots.size ≤ 65535)
    (htells : c.TellsLengths bytes plan) (h : weave bytes c plan = .ok (some out)) :
    ∃ c', ClassFile.read out = .ok c' ∧ c.Recoded plan c' :=
  (writtenOver_weave hread hslots h).2 htells

/-- **What weaving writes** stands over the octets of the class, and is read as the class with the plan
carried out. The length of a code attribute is written with 32 bits, whether or not they can tell it:
where they cannot, what is written need not be a class (`ClassFile.weave_overlong`). -/
theorem read_weave (hread : ClassFile.read bytes = .ok c) (hslots : c.pool.slots.size ≤ 65535)
    (h : weave bytes c plan = .ok (some out)) :
    c.WrittenOver plan bytes out
      ∧ (c.TellsLengths bytes plan → ∃ c', ClassFile.read out = .ok c' ∧ c.Woven plan c') := by
  obtain ⟨hover, hrecoded⟩ := writtenOver_weave hread hslots h
  refine ⟨hover, fun htells => ?_⟩
  obtain ⟨c', hread', hrecoded⟩ := hrecoded htells
  exact ⟨c', hread', hrecoded.toWoven⟩

/-- A class `A` with one static method `m`, which does nothing but return. -/
def idle : Bytes :=
  [0xCA, 0xFE, 0xBA, 0xBE, 0, 0, 0, 0x34, 0, 6]
    ++ [1, 0, 1, 0x41, 7, 0, 1, 1, 0, 1, 0x6D, 1, 0, 3, 0x28, 0x29, 0x56]
    ++ [1, 0, 4, 0x43, 0x6F, 0x64, 0x65]
    ++ [0, 0x21, 0, 2, 0, 0, 0, 0, 0, 0, 0, 1, 0, 9, 0, 3, 0, 4, 0, 1]
    ++ [0, 5, 0, 0, 0, 13, 0, 0, 0, 0, 0, 0, 0, 1, 0xB1, 0, 0, 0, 0, 0, 0]

/-- Whether a class is woven by a plan, and its pool is none with a slot too many. -/
def isWovenBy (bytes : Bytes) (plan : WeavePlan) : Bool :=
  match ClassFile.read bytes with
  | .ok c => decide (c.pool.slots.size ≤ 65535) && (match weave bytes c plan with
    | .ok (some _) => true
    | _ => false)
  | .error _ => false

/-- A check of weaving that succeeded tells the class and what it was woven to. -/
theorem exists_of_isWovenBy {plan : WeavePlan} (h : isWovenBy bytes plan = true) :
    ∃ c out, ClassFile.read bytes = .ok c ∧ c.pool.slots.size ≤ 65535
      ∧ weave bytes c plan = .ok (some out) := by
  unfold isWovenBy at h
  split at h
  · next c hread =>
    rw [Bool.and_eq_true, decide_eq_true_eq] at h
    obtain ⟨hslots, hwoven⟩ := h
    split at hwoven
    · next out hout => exact ⟨c, out, hread, hslots, hout⟩
    · cases hwoven
  · cases h

/-- The class is woven, and read back with a hook in its method. -/
theorem read_weave_idle :
    ∃ c out, ClassFile.read idle = .ok c ∧ c.pool.slots.size ≤ 65535
      ∧ c.TellsLengths idle (WeavePlan.empty.add 0 ⟨"H", true, true⟩)
      ∧ weave idle c (WeavePlan.empty.add 0 ⟨"H", true, true⟩) = .ok (some out)
      ∧ c.WrittenOver (WeavePlan.empty.add 0 ⟨"H", true, true⟩) idle out
      ∧ ∃ c', ClassFile.read out = .ok c' ∧ c.Woven (WeavePlan.empty.add 0 ⟨"H", true, true⟩) c' := by
  have hwoven : isWovenBy idle (WeavePlan.empty.add 0 ⟨"H", true, true⟩) = true := by
    decide +kernel
  obtain ⟨c, out, hread, hslots, hout⟩ := exists_of_isWovenBy hwoven
  have htells : c.TellsLengths idle (WeavePlan.empty.add 0 ⟨"H", true, true⟩) :=
    tellsLengths_of_length hread (by decide)
  obtain ⟨hover, hback⟩ := read_weave hread hslots hout
  exact ⟨c, out, hread, hslots, htells, hout, hover, hback htells⟩

end ClassFile

end AdviceWeaver

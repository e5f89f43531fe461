import AdviceWeaver.Proofs.ClassFile.Pool
import AdviceWeaver.Weaving.Weave

/-!
# What is put behind a constant pool

Constants are appended one after the other, and each is known by the index it has in the pool with
all of them (`PoolExtension.Sound`). So the reference to a hook method that interning gives leads,
through the extended pool, to the class, the name and the descriptor it was asked for
(`ConstantPool.Calls`).

## Main results

* `PoolExtension.get_constants` — what was appended has its index in the extended pool.
* `PoolExtension.internMethod_spec` — the index of a hook method leads to that method.
-/

namespace AdviceWeaver

/-- The constant at `index` refers to the static hook method `name` of a class. -/
def ConstantPool.Calls (pool : ConstantPool) (hookClass name : String) (index : UInt16) : Prop :=
  ∃ owner nameAndType nameIndex descriptorIndex,
    pool.get index = .ok (.methodRef owner nameAndType)
      ∧ pool.getClassName owner = .ok hookClass
      ∧ pool.get nameAndType = .ok (.nameAndType nameIndex descriptorIndex)
      ∧ pool.getText nameIndex = .ok name
      ∧ pool.getText descriptorIndex = .ok Hook.descriptor

namespace PoolExtension

/-- What was appended, in the order in which it was. -/
def constants (x : PoolExtension) : List Constant :=
  x.appended.reverse.map Prod.fst

/-- Constants that can be written were appended behind `base` slots, each at the next index. -/
structure Sound (base : Nat) (x : PoolExtension) : Prop where
  next : x.next = base + x.appended.length
  next_le : x.next ≤ 65535
  linked {k : Constant} {index : UInt16} : (k, index) ∈ x.appended → k.IsLinked
  placed {later earlier : List (Constant × UInt16)} {k : Constant} {index : UInt16} :
    x.appended = later ++ (k, index) :: earlier → index = UInt16.ofNat (base + earlier.length)

variable {base : Nat} {x y : PoolExtension} {k : Constant} {index : UInt16}

/-- An extension to which nothing was added is sound. -/
theorem sound_start {count : UInt16} : Sound count.toNat (start count) where
  next := rfl
  next_le := Nat.le_of_lt_succ count.toNat_lt
  linked h := by cases h
  placed h := by simp [start] at h

theorem length_constants (x : PoolExtension) : x.constants.length = x.appended.length := by
  simp [constants]

theorem encode_eq (x : PoolExtension) : x.encode = x.constants.flatMap Constant.encode := by
  simp only [encode, constants, List.flatMap_map]

/-- **What was appended** has its index in the extended pool. -/
theorem get_constants {pool : ConstantPool} (h : Sound pool.slots.size x)
    (hpos : 0 < pool.slots.size) (hk : (k, index) ∈ x.appended) :
    (pool.extend x.constants).get index = .ok k := by
  obtain ⟨later, earlier, hsplit⟩ := List.append_of_mem hk
  have hle := h.next_le
  rw [h.next, hsplit, List.length_append, List.length_cons] at hle
  rw [h.placed hsplit]
  refine ConstantPool.get_extend_new hpos (by omega) ?_
  simp [constants, hsplit]

/-- Appending a constant at the next index. -/
theorem Sound.append (h : Sound base x) (hlt : x.next < 65535) (hk : k.IsLinked) :
    Sound base ⟨x.next + 1, (k, UInt16.ofNat x.next) :: x.appended⟩ where
  next := by
    simp only [h.next, List.length_cons]
    omega
  next_le := hlt
  linked hmem := by
    obtain heq | hmem := List.mem_cons.1 hmem
    · cases heq
      exact hk
    · exact h.linked hmem
  placed {later} _ _ _ hsplit := by
    cases later with
    | nil =>
      obtain ⟨heq, rfl⟩ := List.cons.inj hsplit
      cases heq
      rw [h.next]
    | cons entry later => exact h.placed (List.cons.inj hsplit).2

/-- **Asking for a constant** appends it, if it is not there. -/
theorem intern_spec (hx : Sound base x) (hk : k.IsLinked) (h : intern k x = .ok (index, y)) :
    Sound base y ∧ x.appended <:+ y.appended ∧ (k, index) ∈ y.appended := by
  simp only [intern] at h
  split at h
  · next hlookup =>
    cases h
    obtain ⟨later, earlier, hsplit, -⟩ := List.lookup_eq_some_iff.1 hlookup
    exact ⟨hx, List.suffix_rfl, by simp [hsplit]⟩
  · split at h
    · next hlt =>
      cases h
      exact ⟨hx.append hlt hk, List.suffix_cons _ _, List.mem_cons_self⟩
    · cases h

/-- Interning a text keeps the extension sound, and the text has the index that is answered. -/
theorem internText_spec {text : String} (hx : Sound base x)
    (h : internText text x = .ok (index, y)) :
    Sound base y ∧ x.appended <:+ y.appended ∧ (.utf8 text, index) ∈ y.appended := by
  unfold internText at h
  split at h
  · next hencodable =>
    simp only [isEncodable, Bool.and_eq_true, decide_eq_true_eq] at hencodable
    exact intern_spec hx hencodable.1 h
  · cases h

/-! ### Hook methods -/

/-- What was appended leads from `index` to the static hook method `name` of a class. -/
def Knows (x : PoolExtension) (hookClass name : String) (index : UInt16) : Prop :=
  ∃ classText owner nameText descriptorText nameAndType,
    (.utf8 hookClass, classText) ∈ x.appended ∧ (.classInfo classText, owner) ∈ x.appended
      ∧ (.utf8 name, nameText) ∈ x.appended ∧ (.utf8 Hook.descriptor, descriptorText) ∈ x.appended
      ∧ (.nameAndType nameText descriptorText, nameAndType) ∈ x.appended
      ∧ (.methodRef owner nameAndType, index) ∈ x.appended

/-- What was appended stays known when more is. -/
theorem Knows.mono {hookClass name : String} (h : x.appended <:+ y.appended)
    (hx : x.Knows hookClass name index) : y.Knows hookClass name index := by
  obtain ⟨classText, owner, nameText, descriptorText, nameAndType, h₁, h₂, h₃, h₄, h₅, h₆⟩ := hx
  exact ⟨classText, owner, nameText, descriptorText, nameAndType, h.subset h₁, h.subset h₂,
    h.subset h₃, h.subset h₄, h.subset h₅, h.subset h₆⟩

/-- **A known method** is called through the extended pool. -/
theorem Knows.calls {pool : ConstantPool} {hookClass name : String}
    (hsound : Sound pool.slots.size x) (hpos : 0 < pool.slots.size)
    (h : x.Knows hookClass name index) :
    (pool.extend x.constants).Calls hookClass name index := by
  obtain ⟨classText, owner, nameText, descriptorText, nameAndType, h₁, h₂, h₃, h₄, h₅, h₆⟩ := h
  have hget {k : Constant} {i : UInt16} (hk : (k, i) ∈ x.appended) :=
    get_constants hsound hpos hk
  have hclass : (pool.extend x.constants).getClassName owner = .ok hookClass :=
    except_bind_eq_ok.2 ⟨_, hget h₂, ConstantPool.getText_eq_ok_iff.2 (hget h₁)⟩
  exact ⟨owner, nameAndType, nameText, descriptorText, hget h₆, hclass, hget h₅,
    ConstantPool.getText_eq_ok_iff.2 (hget h₃), ConstantPool.getText_eq_ok_iff.2 (hget h₄)⟩

/-- **The index of a hook method** leads to that method. -/
theorem internMethod_spec {hookClass name : String} (hx : Sound base x)
    (h : internMethod hookClass name x = .ok (index, y)) :
    Sound base y ∧ x.appended <:+ y.appended ∧ y.Knows hookClass name index := by
  obtain ⟨classText, x₁, h₁, h⟩ := bind_eq_ok_iff.1 h
  obtain ⟨hx₁, hle₁, hmem₁⟩ := internText_spec hx h₁
  obtain ⟨owner, x₂, h₂, h⟩ := bind_eq_ok_iff.1 h
  obtain ⟨hx₂, hle₂, hmem₂⟩ := intern_spec (k := .classInfo classText) hx₁ trivial h₂
  obtain ⟨nameText, x₃, h₃, h⟩ := bind_eq_ok_iff.1 h
  obtain ⟨hx₃, hle₃, hmem₃⟩ := internText_spec hx₂ h₃
  obtain ⟨descriptorText, x₄, h₄, h⟩ := bind_eq_ok_iff.1 h
  obtain ⟨hx₄, hle₄, hmem₄⟩ := internText_spec hx₃ h₄
  obtain ⟨nameAndType, x₅, h₅, h⟩ := bind_eq_ok_iff.1 h
  obtain ⟨hx₅, hle₅, hmem₅⟩ := intern_spec (k := .nameAndType nameText descriptorText) hx₄ trivial h₅
  obtain ⟨hx₆, hle₆, hmem₆⟩ := intern_spec (k := .methodRef owner nameAndType) hx₅ trivial h
  have hle₄₆ := hle₅.trans hle₆
  have hle₃₆ := hle₄.trans hle₄₆
  have hle₂₆ := hle₃.trans hle₃₆
  have hle₁₆ := hle₂.trans hle₂₆
  exact ⟨hx₆, hle₁.trans hle₁₆, classText, owner, nameText, descriptorText, nameAndType,
    hle₁₆.subset hmem₁, hle₂₆.subset hmem₂, hle₃₆.subset hmem₃, hle₄₆.subset hmem₄,
    hle₆.subset hmem₅, hmem₆⟩

/-- The indexes of the methods `name` of some hook classes. -/
theorem mapM_internMethod_spec {name : String} {hooks : List Hook} {indexes : List UInt16}
    (hx : Sound base x)
    (h : hooks.mapM (fun hook => internMethod hook.hookClass name) x = .ok (indexes, y)) :
    Sound base y ∧ x.appended <:+ y.appended
      ∧ List.Forall₂ (fun hook index => y.Knows hook.hookClass name index) hooks indexes :=
  mapM_keeps (Sound base) (fun x y => x.appended <:+ y.appended)
    (fun hook index y => y.Knows hook.hookClass name index) (fun _ => List.suffix_rfl)
    (fun _ _ _ => List.IsSuffix.trans) (fun _ _ _ _ => Knows.mono)
    (fun _ _ _ _ => internMethod_spec) hx h

end PoolExtension

/-- Whether a hook asks for a call at all. -/
def Hook.isActive (hook : Hook) : Bool :=
  hook.enter || hook.exit

/-- The indexes are those of the methods that `hooks` ask for, which `leads` tells: the enter methods
in order, and the exit methods in reverse order. -/
structure HookRefs.Meets (refs : HookRefs) (leads : String → String → UInt16 → Prop)
    (hooks : List Hook) : Prop where
  enter : List.Forall₂ (fun hook index => leads hook.hookClass Hook.enterName index)
    (hooks.filter Hook.enter) refs.enter
  exit : List.Forall₂ (fun hook index => leads hook.hookClass Hook.exitName index)
    (hooks.reverse.filter Hook.exit) refs.exit

namespace HookRefs.Meets

variable {refs : HookRefs} {leads leads' : String → String → UInt16 → Prop} {hooks : List Hook}

/-- Calls that meet some hooks still do if their constants stand for more. -/
theorem imp (h : ∀ hookClass name index, leads hookClass name index → leads' hookClass name index)
    (hrefs : refs.Meets leads hooks) : refs.Meets leads' hooks where
  enter := hrefs.enter.imp fun _ _ => h _ _ _
  exit := hrefs.exit.imp fun _ _ => h _ _ _

/-- No method is called exactly if no hook asks for one. -/
theorem isEmpty_eq (h : refs.Meets leads hooks) :
    refs.isEmpty = !hooks.any Hook.isActive := by
  rw [Bool.eq_iff_iff]
  simp only [HookRefs.isEmpty, Bool.and_eq_true, List.isEmpty_iff_length_eq_zero,
    ← h.enter.length_eq, ← h.exit.length_eq, List.length_eq_zero_iff, List.filter_eq_nil_iff,
    List.mem_reverse, Bool.not_eq_true, Bool.not_eq_true', List.any_eq_false, Hook.isActive,
    Bool.or_eq_false_iff]
  constructor
  · rintro ⟨henter, hexit⟩ hook hmem
    exact ⟨henter hook hmem, hexit hook hmem⟩
  · intro hnone
    exact ⟨fun hook hmem => (hnone hook hmem).1, fun hook hmem => (hnone hook hmem).2⟩

end HookRefs.Meets

/-- **The hooks of a method** as constants. -/
theorem PoolExtension.hookRefs_spec {base : Nat} {x y : PoolExtension} {hooks : List Hook}
    {refs : HookRefs} (hx : Sound base x) (h : hookRefs hooks x = .ok (refs, y)) :
    Sound base y ∧ x.appended <:+ y.appended ∧ refs.Meets y.Knows hooks := by
  obtain ⟨enter, x₁, h₁, h⟩ := bind_eq_ok_iff.1 h
  obtain ⟨hx₁, hle₁, henter⟩ := mapM_internMethod_spec hx h₁
  obtain ⟨exit, x₂, h₂, h⟩ := bind_eq_ok_iff.1 h
  obtain ⟨hx₂, hle₂, hexit⟩ := mapM_internMethod_spec hx₁ h₂
  obtain ⟨rfl, rfl⟩ := pure_eq_ok_iff.1 h
  exact ⟨hx₂, hle₁.trans hle₂, henter.imp fun _ _ => Knows.mono hle₂, hexit⟩

end AdviceWeaver

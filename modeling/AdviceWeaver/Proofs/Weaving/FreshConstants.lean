import Mathlib.Data.List.Dedup
import AdviceWeaver.Proofs.Weaving.WovenClass

/-!
# The constants that weaving adds

Hook calls need constants that can be told before any of them has an index: texts, the classes and
the members that they name, and the methods themselves (`HookConstant`). Weaving appends one constant
for each of those, each at an index of its own behind the pool of the class, and no other
(`PoolExtension.Reflects`). So the number of slots that are needed is known from the class and the
plan, and a plan that needs more slots than there are is never carried out.

The pool of a class may have one slot more than its count can tell, if a long or double constant comes
last. Then the count is zero, and weaving begins to count there.

## Main results

* `ClassFile.weave_extends` — what weaving appends, and when it cannot.
* `ClassFile.weave_crowded` — a class whose pool has a slot too many is woven with index 0.
-/

namespace AdviceWeaver

/-- A constant that hook calls need, by what it stands for. -/
inductive HookConstant where
  | text (text : String)
  | owner (hookClass : String)
  /-- The name and the descriptor of a hook method. -/
  | member (name : String)
  | call (hookClass name : String)
deriving DecidableEq

/-- The constants that the calls of a hook method need, in the order in which they are asked for. -/
def HookConstant.ofCall (call : String × String) : List HookConstant :=
  [.text call.1, .owner call.1, .text call.2, .text Hook.descriptor, .member call.2,
    .call call.1 call.2]

/-- The call of a hook method needs no call of another one. -/
theorem HookConstant.call_mem_ofCall_iff {hookClass name : String} {call : String × String} :
    HookConstant.call hookClass name ∈ ofCall call ↔ call = (hookClass, name) := by
  obtain ⟨hookClass', name'⟩ := call
  simp [ofCall, eq_comm]

/-- The hook methods that the hooks of a method call, as pairs of a class and a name. -/
def Hook.calls (hooks : List Hook) : List (String × String) :=
  (hooks.filter Hook.enter).map (fun h => (h.hookClass, Hook.enterName))
    ++ (hooks.reverse.filter Hook.exit).map (fun h => (h.hookClass, Hook.exitName))

namespace PoolExtension

variable {pool : ConstantPool} {x y : PoolExtension} {k k' : Constant} {index index' : UInt16}
  {h h' : HookConstant} {asked : List HookConstant} {text hookClass name : String}

/-! ### Indexes -/

/-- **Every index** that was given lies behind the pool. -/
theorem Sound.le_index_lt {base : Nat} (hx : Sound base x) (hk : (k, index) ∈ x.appended) :
    base ≤ index.toNat ∧ index.toNat < x.next := by
  obtain ⟨later, earlier, hsplit⟩ := List.append_of_mem hk
  have hnext := hx.next
  have hle := hx.next_le
  rw [hsplit, List.length_append, List.length_cons] at hnext
  have hindex : index.toNat = base + earlier.length := by
    rw [hx.placed hsplit]
    exact UInt16.toNat_ofNat_of_lt' (Nat.lt_succ_of_le (by omega))
  omega

/-- An index stands for one constant. -/
theorem Sound.constant_unique (hx : Sound pool.slots.size x) (hpos : 0 < pool.slots.size)
    (hk : (k, index) ∈ x.appended) (hk' : (k', index) ∈ x.appended) : k = k' :=
  Except.ok.inj ((get_constants hx hpos hk).symm.trans (get_constants hx hpos hk'))

/-! ### What constants stand for -/

/-- A constant spells what it stands for, if the constants that it refers to do. -/
inductive Spells (x : PoolExtension) : HookConstant → Constant → Prop
  | text (text : String) : Spells x (.text text) (.utf8 text)
  | owner {hookClass : String} {index : UInt16} (hname : (.utf8 hookClass, index) ∈ x.appended) :
      Spells x (.owner hookClass) (.classInfo index)
  | member {name : String} {index descriptor : UInt16} (hname : (.utf8 name, index) ∈ x.appended)
      (hdescriptor : (.utf8 Hook.descriptor, descriptor) ∈ x.appended) :
      Spells x (.member name) (.nameAndType index descriptor)
  | call {hookClass name : String} {owner member : Constant} {ownerIndex memberIndex : UInt16}
      (howner : Spells x (.owner hookClass) owner) (hindex : (owner, ownerIndex) ∈ x.appended)
      (hmember : Spells x (.member name) member) (hindex' : (member, memberIndex) ∈ x.appended) :
      Spells x (.call hookClass name) (.methodRef ownerIndex memberIndex)

/-- What a constant spells is kept when more constants are appended. -/
theorem Spells.mono (hle : x.appended <:+ y.appended) (hk : x.Spells h k) : y.Spells h k := by
  induction hk with
  | text text => exact .text text
  | owner hname => exact .owner (hle.subset hname)
  | member hname hdescriptor => exact .member (hle.subset hname) (hle.subset hdescriptor)
  | call _ hindex _ hindex' ihowner ihmember =>
    exact .call ihowner (hle.subset hindex) ihmember (hle.subset hindex')

/-- What a constant spells is the same for all who read it. -/
theorem Spells.injective (hx : Sound pool.slots.size x) (hpos : 0 < pool.slots.size)
    (hk : x.Spells h k) (hk' : x.Spells h' k) : h = h' := by
  induction hk generalizing h' with
  | text text =>
    cases hk'
    rfl
  | owner hname =>
    cases hk' with
    | owner hname' =>
      cases hx.constant_unique hpos hname hname'
      rfl
  | member hname hdescriptor =>
    cases hk' with
    | member hname' hdescriptor' =>
      cases hx.constant_unique hpos hname hname'
      rfl
  | call howner hindex hmember hindex' ihowner ihmember =>
    cases hk' with
    | call howner' hindex'' hmember' hindex''' =>
      cases hx.constant_unique hpos hindex hindex''
      cases hx.constant_unique hpos hindex' hindex'''
      cases ihowner howner'
      cases ihmember hmember'
      rfl

/-- The references of a hook method are what the method is known by. -/
theorem knows_iff : x.Knows hookClass name index
    ↔ ∃ k, x.Spells (.call hookClass name) k ∧ (k, index) ∈ x.appended := by
  constructor
  · rintro ⟨_, _, _, _, _, h₁, h₂, h₃, h₄, h₅, h₆⟩
    exact ⟨_, .call (.owner h₁) h₂ (.member h₃ h₄) h₅, h₆⟩
  · rintro ⟨k, hk, hmem⟩
    cases hk with
    | call howner hindex hmember hindex' =>
      cases howner with
      | owner hname =>
        cases hmember with
        | member hname' hdescriptor =>
          exact ⟨_, _, _, _, _, hname, hindex, hname', hdescriptor, hindex', hmem⟩

/-! ### What was asked for -/

/-- Behind a pool there is one constant for each thing that was asked for so far, the latest first, and
no other. -/
structure Reflects (pool : ConstantPool) (x : PoolExtension) (asked : List HookConstant) : Prop where
  sound : Sound pool.slots.size x
  distinct : (x.appended.map Prod.fst).Nodup
  spelled : List.Forall₂ (fun h entry => x.Spells h entry.1) asked.dedup x.appended

namespace Reflects

/-- A constant has one index. -/
theorem index_unique (hx : Reflects pool x asked) (hk : (k, index) ∈ x.appended)
    (hk' : (k, index') ∈ x.appended) : index = index' :=
  congrArg Prod.snd (List.inj_on_of_nodup_map hx.distinct hk hk' rfl)

/-- There is one way to spell what was asked for. -/
theorem spells_unique (hx : Reflects pool x asked) (hk : x.Spells h k) (hk' : x.Spells h k') :
    k = k' := by
  induction hk generalizing k' with
  | text text =>
    cases hk'
    rfl
  | owner hname =>
    cases hk' with
    | owner hname' =>
      obtain rfl := hx.index_unique hname hname'
      rfl
  | member hname hdescriptor =>
    cases hk' with
    | member hname' hdescriptor' =>
      obtain rfl := hx.index_unique hname hname'
      obtain rfl := hx.index_unique hdescriptor hdescriptor'
      rfl
  | call howner hindex hmember hindex' ihowner ihmember =>
    cases hk' with
    | call howner' hindex'' hmember' hindex''' =>
      obtain rfl := ihowner howner'
      obtain rfl := ihmember hmember'
      obtain rfl := hx.index_unique hindex hindex''
      obtain rfl := hx.index_unique hindex' hindex'''
      rfl

/-- There are as many constants as things that were asked for. -/
theorem length_appended (hx : Reflects pool x asked) : x.appended.length = asked.dedup.length :=
  hx.spelled.length_eq.symm

variable (hpos : 0 < pool.slots.size)
include hpos

/-- **Asking for a constant** asks for what it spells. -/
theorem intern (hx : Reflects pool x asked) (hk : k.IsLinked) (hspells : x.Spells h k)
    (hrun : PoolExtension.intern k x = .ok (index, y)) : Reflects pool y (h :: asked) := by
  obtain ⟨hy, hle, -⟩ := intern_spec hx.sound hk hrun
  simp only [PoolExtension.intern] at hrun
  split at hrun
  · next hlookup =>
    cases hrun
    obtain ⟨later, earlier, hsplit, -⟩ := List.lookup_eq_some_iff.1 hlookup
    have hmem : (k, index) ∈ x.appended := by simp [hsplit]
    obtain ⟨h', hh', hspells'⟩ := exists_of_forall₂_right hx.spelled hmem
    obtain rfl : h = h' := hspells.injective hx.sound hpos hspells'
    refine ⟨hy, hx.distinct, ?_⟩
    rw [List.dedup_cons_of_mem (List.mem_dedup.1 hh')]
    exact hx.spelled
  · next hlookup =>
    split at hrun
    · cases hrun
      have hnew : k ∉ x.appended.map Prod.fst := by
        intro hmem
        obtain ⟨entry, hentry, rfl⟩ := List.mem_map.1 hmem
        have hne := List.lookup_eq_none_iff.1 hlookup entry hentry
        simp at hne
      have hfresh : h ∉ asked := by
        intro hasked
        obtain ⟨entry, hentry, hspells'⟩ :=
          exists_of_forall₂_left hx.spelled (List.mem_dedup.2 hasked)
        rw [hx.spells_unique hspells hspells'] at hnew
        exact hnew (List.mem_map_of_mem hentry)
      refine ⟨hy, List.nodup_cons.2 ⟨hnew, hx.distinct⟩, ?_⟩
      rw [List.dedup_cons_of_notMem hfresh]
      exact .cons (hspells.mono hle) (hx.spelled.imp fun _ _ hs => hs.mono hle)
    · cases hrun

/-- Interning a text answers the request for that text. -/
theorem internText (hx : Reflects pool x asked)
    (hrun : PoolExtension.internText text x = .ok (index, y)) :
    Reflects pool y (.text text :: asked) := by
  unfold PoolExtension.internText at hrun
  split at hrun
  · next hencodable =>
    simp only [isEncodable, Bool.and_eq_true, decide_eq_true_eq] at hencodable
    exact hx.intern hpos (k := .utf8 text) hencodable.1 (.text text) hrun
  · cases hrun

/-- Asking for a hook method asks for all that its calls need. -/
theorem internMethod (hx : Reflects pool x asked)
    (hrun : PoolExtension.internMethod hookClass name x = .ok (index, y)) :
    Reflects pool y ((HookConstant.ofCall (hookClass, name)).reverse ++ asked) := by
  obtain ⟨classText, x₁, h₁, hrun⟩ := bind_eq_ok_iff.1 hrun
  obtain ⟨-, -, hclass⟩ := internText_spec hx.sound h₁
  have hx₁ := hx.internText hpos h₁
  obtain ⟨owner, x₂, h₂, hrun⟩ := bind_eq_ok_iff.1 hrun
  have hlinked₂ : (Constant.classInfo classText).IsLinked := trivial
  obtain ⟨-, hle₂, howner⟩ := intern_spec hx₁.sound hlinked₂ h₂
  have hspells₂ : x₁.Spells (.owner hookClass) (.classInfo classText) := .owner hclass
  have hx₂ := hx₁.intern hpos hlinked₂ hspells₂ h₂
  obtain ⟨nameText, x₃, h₃, hrun⟩ := bind_eq_ok_iff.1 hrun
  obtain ⟨-, hle₃, hname⟩ := internText_spec hx₂.sound h₃
  have hx₃ := hx₂.internText hpos h₃
  obtain ⟨descriptorText, x₄, h₄, hrun⟩ := bind_eq_ok_iff.1 hrun
  obtain ⟨-, hle₄, hdescriptor⟩ := internText_spec hx₃.sound h₄
  have hx₄ := hx₃.internText hpos h₄
  obtain ⟨nameAndType, x₅, h₅, hrun⟩ := bind_eq_ok_iff.1 hrun
  have hlinked₅ : (Constant.nameAndType nameText descriptorText).IsLinked := trivial
  have hspells₅ : x₄.Spells (.member name) (.nameAndType nameText descriptorText) :=
    .member (hle₄.subset hname) hdescriptor
  obtain ⟨-, hle₅, hmember⟩ := intern_spec hx₄.sound hlinked₅ h₅
  have hx₅ := hx₄.intern hpos hlinked₅ hspells₅ h₅
  have hle₃₅ := hle₃.trans (hle₄.trans hle₅)
  have hspells₆ : x₅.Spells (.call hookClass name) (.methodRef owner nameAndType) :=
    .call (hspells₂.mono (hle₂.trans hle₃₅)) (hle₃₅.subset howner) (hspells₅.mono hle₅) hmember
  have hlinked₆ : (Constant.methodRef owner nameAndType).IsLinked := trivial
  exact hx₅.intern hpos hlinked₆ hspells₆ hrun

omit hpos in
/-- Actions for the items of a list ask for what the single ones ask for. -/
theorem mapM {α β : Type} {f : α → StateT PoolExtension (Except WeaveError) β}
    (asks : α → List HookConstant)
    (hf : ∀ {a b x y asked}, Reflects pool x asked → f a x = .ok (b, y) →
      Reflects pool y ((asks a).reverse ++ asked))
    {items : List α} {results : List β} (hx : Reflects pool x asked)
    (hrun : items.mapM f x = .ok (results, y)) :
    Reflects pool y ((items.flatMap asks).reverse ++ asked) := by
  induction items generalizing x asked results with
  | nil =>
    rw [List.mapM_nil] at hrun
    obtain ⟨-, rfl⟩ := pure_eq_ok_iff.1 hrun
    exact hx
  | cons a rest ih =>
    rw [List.mapM_cons] at hrun
    obtain ⟨b, x₁, hfirst, hrun⟩ := bind_eq_ok_iff.1 hrun
    obtain ⟨more, x₂, hrest, hrun⟩ := bind_eq_ok_iff.1 hrun
    obtain ⟨-, rfl⟩ := pure_eq_ok_iff.1 hrun
    have hx₂ := ih (hf hx hfirst) hrest
    rw [← List.append_assoc, ← List.reverse_append] at hx₂
    exact hx₂

/-- The calls of hooks are answered one by one, in the order in which they are asked for. -/
theorem hookRefs {hooks : List Hook} {refs : HookRefs} (hx : Reflects pool x asked)
    (hrun : AdviceWeaver.hookRefs hooks x = .ok (refs, y)) :
    Reflects pool y (((Hook.calls hooks).flatMap HookConstant.ofCall).reverse ++ asked) := by
  obtain ⟨enter, x₁, henter, hrun⟩ := bind_eq_ok_iff.1 hrun
  obtain ⟨exit, x₂, hexit, hrun⟩ := bind_eq_ok_iff.1 hrun
  obtain ⟨-, rfl⟩ := pure_eq_ok_iff.1 hrun
  have hx₁ := mapM (fun hook : Hook => HookConstant.ofCall (hook.hookClass, Hook.enterName))
    (fun hx hrun => hx.internMethod hpos hrun) hx henter
  have hx₂ := mapM (fun hook : Hook => HookConstant.ofCall (hook.hookClass, Hook.exitName))
    (fun hx hrun => hx.internMethod hpos hrun) hx₁ hexit
  rw [← List.append_assoc, ← List.reverse_append] at hx₂
  rw [Hook.calls, List.flatMap_append, List.flatMap_map, List.flatMap_map]
  exact hx₂

end Reflects

end PoolExtension

/-! ### Carrying out a plan -/

namespace ClassFile

open PoolExtension

variable {bytes out : Bytes} {c : ClassFile} {plan : WeavePlan} {x y : PoolExtension}
  {asked : List HookConstant}

/-- The hook methods that an entry of a plan calls: those of its hooks, if its method has code. -/
def callsOf (c : ClassFile) (entry : Nat × List Hook) : List (String × String) :=
  if (c.methods[entry.1]?.bind MethodInfo.code?).isSome then Hook.calls entry.2 else []

/-- The hook methods that a plan calls, as often as it does. -/
def calls (c : ClassFile) (plan : WeavePlan) : List (String × String) :=
  plan.entries.flatMap c.callsOf

/-- The constants that a plan needs, as often as they are asked for. -/
def needs (c : ClassFile) (plan : WeavePlan) : List HookConstant :=
  (c.calls plan).flatMap HookConstant.ofCall

/-- The call of a hook method is needed if the plan has it. -/
theorem call_mem_needs_iff {hookClass name : String} :
    HookConstant.call hookClass name ∈ c.needs plan ↔ (hookClass, name) ∈ c.calls plan := by
  rw [needs, List.mem_flatMap]
  constructor
  · rintro ⟨call, hcall, hmem⟩
    exact HookConstant.call_mem_ofCall_iff.1 hmem ▸ hcall
  · intro hcall
    exact ⟨_, hcall, HookConstant.call_mem_ofCall_iff.2 rfl⟩

/-- Splicing a method asks for the constants of its hooks, and for none if it has no code. -/
theorem reflects_spliceMethod (hpos : 0 < c.pool.slots.size) {entry : Nat × List Hook}
    {splice? : Option Splice} (hx : Reflects c.pool x asked)
    (hrun : spliceMethod bytes c.methods.toArray entry x = .ok (splice?, y)) :
    Reflects c.pool y (((c.callsOf entry).flatMap HookConstant.ofCall).reverse ++ asked) := by
  obtain ⟨index, hooks⟩ := entry
  simp only [spliceMethod, List.getElem?_toArray] at hrun
  cases hm : c.methods[index]? with
  | none =>
    rw [hm] at hrun
    cases hrun
  | some m =>
    rw [hm] at hrun
    simp only [callsOf, hm, Option.bind_some]
    cases hcode : m.code? with
    | none =>
      simp only [hcode] at hrun
      obtain ⟨-, rfl⟩ := pure_eq_ok_iff.1 hrun
      exact hx
    | some found =>
      simp only [hcode] at hrun
      obtain ⟨refs, x₁, hrefs, hrun⟩ := bind_eq_ok_iff.1 hrun
      have hx₁ := hx.hookRefs hpos hrefs
      split at hrun
      · obtain ⟨-, rfl⟩ := pure_eq_ok_iff.1 hrun
        exact hx₁
      · obtain ⟨content, x₂, hcontent, hrun⟩ := bind_eq_ok_iff.1 hrun
        obtain ⟨-, rfl⟩ := pure_eq_ok_iff.1 hrun
        obtain ⟨-, rfl⟩ := lift_eq_ok_iff.1 hcontent
        exact hx₁

/-- **Carrying out a plan** asks for what the plan needs. -/
theorem reflects_mapM_spliceMethod (hpos : 0 < c.pool.slots.size)
    (hslots : c.pool.slots.size ≤ 65535) {results : List (Option Splice)}
    (hrun : plan.entries.mapM (spliceMethod bytes c.methods.toArray) (.start c.pool.count)
      = .ok (results, x)) : Reflects c.pool x (c.needs plan).reverse := by
  have hcount : c.pool.count.toNat = c.pool.slots.size :=
    UInt16.toNat_ofNat_of_lt' (Nat.lt_succ_of_le hslots)
  have hstart : Reflects c.pool (.start c.pool.count) [] :=
    ⟨hcount ▸ sound_start, List.nodup_nil, .nil⟩
  have hx := Reflects.mapM (fun entry => (c.callsOf entry).flatMap HookConstant.ofCall)
    (fun hx hrun => reflects_spliceMethod hpos hx hrun) hstart hrun
  rw [List.append_nil, ← List.flatMap_assoc] at hx
  exact hx

/-- Behind the pool of a class there is one constant for each thing that a plan needs, at an index of
its own, and one reference for each hook method that it calls. -/
structure Extends (c : ClassFile) (plan : WeavePlan) (x : PoolExtension) : Prop where
  next : x.next = c.pool.slots.size + (c.needs plan).dedup.length
  next_le : x.next ≤ 65535
  /-- Every index is new, the slots that hold nothing included. -/
  fresh {k : Constant} {index : UInt16} : (k, index) ∈ x.appended →
    0 < index.toNat ∧ c.pool.slots.size ≤ index.toNat ∧ index.toNat < x.next
  constants_nodup : (x.appended.map Prod.fst).Nodup
  indexes_nodup : (x.appended.map Prod.snd).Nodup
  calls {call : String × String} : call ∈ c.calls plan → ∃! index, x.Knows call.1 call.2 index
  /-- There are no other references. -/
  called {owner nameAndType index : UInt16} : (.methodRef owner nameAndType, index) ∈ x.appended →
    ∃ call ∈ c.calls plan, x.Knows call.1 call.2 index

/-- A pool whose requests were those of a plan is extended as the plan says. -/
theorem extends_of_reflects (hpos : 0 < c.pool.slots.size)
    (hx : Reflects c.pool x (c.needs plan).reverse) : c.Extends plan x where
  next := by
    rw [hx.sound.next, hx.length_appended, (List.reverse_perm _).dedup.length_eq]
  next_le := hx.sound.next_le
  fresh hk := by
    obtain ⟨hle, hlt⟩ := hx.sound.le_index_lt hk
    exact ⟨Nat.lt_of_lt_of_le hpos hle, hle, hlt⟩
  constants_nodup := hx.distinct
  indexes_nodup := by
    refine List.Nodup.map_on ?_ (List.Nodup.of_map _ hx.distinct)
    rintro ⟨k, index⟩ hk ⟨k', index'⟩ hk' heq
    obtain rfl : index = index' := heq
    rw [hx.sound.constant_unique hpos hk hk']
  calls {call} hcall := by
    have hasked : HookConstant.call call.1 call.2 ∈ (c.needs plan).reverse.dedup :=
      List.mem_dedup.2 (List.mem_reverse.2 (call_mem_needs_iff.2 hcall))
    obtain ⟨⟨k, index⟩, hentry, hspells⟩ := exists_of_forall₂_left hx.spelled hasked
    refine ⟨index, knows_iff.2 ⟨k, hspells, hentry⟩, fun index' hknows => ?_⟩
    obtain ⟨k', hspells', hentry'⟩ := knows_iff.1 hknows
    obtain rfl := hx.spells_unique hspells hspells'
    exact hx.index_unique hentry' hentry
  called {owner nameAndType index} hentry := by
    obtain ⟨h, hasked, hspells⟩ := exists_of_forall₂_right hx.spelled hentry
    cases h with
    | call hookClass name =>
      have hneeds := List.mem_reverse.1 (List.mem_dedup.1 hasked)
      exact ⟨_, call_mem_needs_iff.1 hneeds, knows_iff.2 ⟨_, hspells, hentry⟩⟩
    | _ => cases hspells

/-- **What weaving appends** to a class whose slots can be counted: all that the plan needs, at new
indexes, and nothing else; the count that is written is the next free index, and all calls go to what
was appended. If there is no room for what the plan needs, weaving does not succeed. -/
theorem weave_extends (hread : ClassFile.read bytes = .ok c) (hslots : c.pool.slots.size ≤ 65535) :
    (∀ out, weave bytes c plan = .ok (some out) → ∃ results x,
        (plan.entries.mapM (spliceMethod bytes c.methods.toArray)).run (.start c.pool.count)
          = .ok (results, x)
        ∧ List.Forall₂ (fun entry splice? => ∃ m, c.methods[entry.1]? = some m
          ∧ m.Splices bytes x entry.2 splice?) plan.entries results
        ∧ c.Extends plan x ∧ x.count.toNat = x.next
        ∧ ∃ rest, out = c.head ++ Bytes.ofUInt16 x.count ++ rest)
      ∧ (65535 < c.pool.slots.size + (c.needs plan).dedup.length →
        ∀ out?, weave bytes c plan ≠ .ok out?) := by
  obtain ⟨count, pool, rest, trailing, heq, -, hpos, -, -⟩ := of_read hread
  constructor
  · intro out h
    obtain ⟨results, x, hrun, hout⟩ := weave_eq_some h
    have hx := reflects_mapM_spliceMethod hpos hslots hrun
    have hcount : c.pool.count.toNat = c.pool.slots.size :=
      UInt16.toNat_ofNat_of_lt' (Nat.lt_succ_of_le hslots)
    obtain ⟨-, hresults⟩ := mapM_spliceMethod_spec sound_start hrun
    have hhead : bytes.slice 0 8 = c.head := Bytes.HasAt.slice_eq ⟨[], _, heq, rfl⟩
    refine ⟨results, x, hrun, hresults, extends_of_reflects hpos hx,
      UInt16.toNat_ofNat_of_lt' (Nat.lt_succ_of_le hx.sound.next_le), ?_⟩
    rw [hout, hhead]
    simp only [List.append_assoc]
    exact ⟨_, rfl⟩
  · intro hfull out? h
    obtain ⟨⟨results, x⟩, hrun, -⟩ := except_bind_eq_ok.1 h
    have hx := extends_of_reflects hpos (reflects_mapM_spliceMethod hpos hslots hrun)
    have hle := hx.next_le
    rw [hx.next] at hle
    omega

/-- The plan that enters one hook in the first method. -/
def entering : WeavePlan := WeavePlan.empty.add 0 ⟨"H", true, false⟩

/-- A class with one method is woven, and the constants of one hook follow its own. -/
theorem weave_extends_idle :
    ∃ c out results x, ClassFile.read idle = .ok c ∧ c.pool.slots.size ≤ 65535
      ∧ weave idle c entering = .ok (some out)
      ∧ (entering.entries.mapM (spliceMethod idle c.methods.toArray)).run (.start c.pool.count)
        = .ok (results, x) ∧ c.Extends entering x := by
  have hwoven : isWovenBy idle entering = true := by
    decide +kernel
  obtain ⟨c, out, hread, hslots, hout⟩ := exists_of_isWovenBy hwoven
  obtain ⟨results, x, hrun, -, hx, -⟩ := (weave_extends hread hslots).1 out hout
  exact ⟨c, out, results, x, hread, hslots, hout, hrun, hx⟩

end ClassFile

/-- The plan that has the hook called at both ends of the first method. -/
def rounding : WeavePlan :=
  WeavePlan.empty.add 0 ⟨"H", true, true⟩

/-! ### Pools with a slot too many -/

namespace Reader

/-- **A pool whose last constant is long** has a slot more than its count tells. -/
theorem takes_constantPool_long {constants : List Constant} (h : ∀ k ∈ constants, k.IsLinked)
    {count : UInt16} (hcount : count.toNat = constants.length + 2) (offset : Nat) :
    constantPool.Takes offset
      (Bytes.ofUInt16 count ++ (constants.flatMap Constant.encode ++ (Constant.long 0).encode))
      ⟨#[none] ++ (constants.map some).toArray ++ #[some (.long 0), none]⟩ := by
  refine (takes_u2 count offset).bind fun rest => ?_
  have hmissing : count.toNat - 1 = constants.length + 1 := by rw [hcount]; rfl
  have hlong (slots : Array (Option Constant)) (offset : Nat) :
      slotsOnto 1 slots ⟨offset, (Constant.long 0).encode ++ rest⟩
        = .ok (slots ++ #[some (.long 0), none],
            ⟨offset + (Constant.long 0).encode.length, rest⟩) := by
    have hfits : (Constant.long 0).Fits := trivial
    have hread := takes_constant hfits offset rest
    have hpush : (slots.push (some (Constant.long 0))).push none
        = slots ++ #[some (.long 0), none] := Array.toList_inj.1 (by simp)
    rw [slotsOnto, hread]
    simp [slotsOnto, Constant.isWide, hpush]
  have hslots := slotsOnto_linked h 1 #[none] (offset + 2) ((Constant.long 0).encode ++ rest)
  rw [hlong, Nat.add_assoc, ← List.length_append] at hslots
  rw [hmissing, List.append_assoc]
  exact bind_eq_ok_iff.2 ⟨_, _, hslots, rfl⟩

/-- An empty table is read from its count. -/
theorem takes_counted_nil {α : Type} {R : Reader α} (offset : Nat) :
    (counted R).Takes offset (Bytes.ofUInt16 0) [] :=
  fun _ => rfl

end Reader

namespace ClassFile

/-- A body that does nothing but return. -/
def idleBody : Code := ⟨0, 0, [0xB1], [], []⟩

/-- The constants of an idle class with `n` more texts and a long one behind. -/
def paddedConstants (n : Nat) : List Constant :=
  [.utf8 "A", .classInfo 1, .utf8 "m", .utf8 "()V", .utf8 "Code"] ++ List.replicate n (.utf8 "")

/-- The octets of these constants. -/
def paddedPool (n : Nat) : Bytes :=
  (paddedConstants n).flatMap Constant.encode ++ (Constant.long 0).encode

/-- A class `A` with one static method `m`, which does nothing but return. The last constant is long and
takes the last slot that is counted and one more. -/
def padded (n : Nat) : ClassFile where
  minorVersion := 0
  majorVersion := 52
  pool := ⟨#[none] ++ ((paddedConstants n).map some).toArray ++ #[some (.long 0), none]⟩
  poolEnd := 10 + (paddedPool n).length
  access := 0x21
  thisClass := 2
  superClass := 0
  interfaces := []
  methods := [⟨9, 3, 4, [⟨5, ⟨10 + (paddedPool n).length + 20, 10 + (paddedPool n).length + 39⟩,
    .code idleBody⟩]⟩]
  attributes := []

/-- The octets of its only method. -/
def idleMethod : Bytes :=
  Bytes.ofUInt16 9 ++ Bytes.ofUInt16 3 ++ Bytes.ofUInt16 4
    ++ (Bytes.ofUInt16 1 ++ encodeAttribute 5 (idleBody.front ++ Bytes.ofUInt16 0))

/-- The octets behind its pool. -/
def idleMembers : Bytes :=
  Bytes.ofUInt16 0x21 ++ Bytes.ofUInt16 2 ++ Bytes.ofUInt16 0 ++ (Bytes.ofUInt16 0
    ++ (Bytes.ofUInt16 0 ++ (Bytes.ofUInt16 1 ++ idleMethod ++ Bytes.ofUInt16 0)))

/-- The octets of the class. -/
def paddedBytes (n : Nat) : Bytes :=
  (padded n).head ++ (Bytes.ofUInt16 (UInt16.ofNat (n + 7)) ++ paddedPool n ++ idleMembers)

variable {n : Nat}

/-- Five constants stand in front of the empty texts. -/
theorem length_paddedConstants : (paddedConstants n).length = n + 5 := by
  simp only [paddedConstants, List.length_append, List.length_replicate, List.length_cons,
    List.length_nil]
  omega

/-- The slots are that of index zero, one for each constant, and two for the long one behind. -/
theorem size_slots_padded : (padded n).pool.slots.size = n + 8 := by
  simp only [padded, Array.size_append, List.size_toArray, List.length_map, length_paddedConstants]
  simp only [List.length_cons, List.length_nil]
  omega

/-- None of the constants refers to another one. -/
theorem linked_paddedConstants : ∀ k ∈ paddedConstants n, k.IsLinked := by
  have htext (text : String) (h : text.utf8ByteSize ≤ 65535) : (Constant.utf8 text).IsLinked := h
  intro k hk
  rcases List.mem_append.1 hk with hk | hk
  · simp only [List.mem_cons, List.not_mem_nil, or_false] at hk
    rcases hk with rfl | rfl | rfl | rfl | rfl
    · exact htext _ (by decide)
    · exact trivial
    · exact htext _ (by decide)
    · exact htext _ (by decide)
    · exact htext _ (by decide)
  · obtain ⟨-, rfl⟩ := List.mem_replicate.1 hk
    exact htext _ (by decide)

/-- The name of the code attribute is at index five. -/
theorem getText_padded : (padded n).pool.getText 5 = .ok "Code" := by
  refine ConstantPool.getText_eq_ok_iff.2 (ConstantPool.get_eq_ok_iff.2 ⟨by decide, ?_⟩)
  simp [padded, paddedConstants]

/-- The idle method is read from its octets, wherever it stands. -/
theorem takes_idleMethod (depth offset : Nat) :
    (Reader.method (padded n).pool (depth + 2)).Takes offset idleMethod
      ⟨9, 3, 4, [⟨5, ⟨offset + 8, offset + 27⟩, .code idleBody⟩]⟩ := by
  have hbody : (Reader.content (Reader.attributes (padded n).pool (depth + 1)) "Code").Takes
      (offset + 8 + 6) (idleBody.front ++ Bytes.ofUInt16 0) (.code idleBody) := by
    rw [Reader.content_code]
    exact (Reader.takes_code (by decide) (by decide) (by decide)
      (Reader.takes_counted_nil _)).map _
  have hattribute := Reader.takes_encodeAttribute (by decide) (getText_padded (n := n))
    (List.append_nil _).symm hbody
  refine Reader.takes_method_iff.2
    ⟨Bytes.ofUInt16 1 ++ encodeAttribute 5 (idleBody.front ++ Bytes.ofUInt16 0), rfl, ?_⟩
  exact (Reader.takes_counted_iff (Reader.definite_attributeEntry _ _)).2
    ⟨Nat.lt_of_sub_eq_succ rfl, _, rfl, _, [], (List.append_nil _).symm, hattribute, rfl⟩

/-- The class is read, if its slots but the last one can be counted. -/
theorem read_paddedBytes (hn : n + 7 ≤ 65535) : ClassFile.read (paddedBytes n) = .ok (padded n) := by
  have hcount : (UInt16.ofNat (n + 7)).toNat = (paddedConstants n).length + 2 := by
    rw [UInt16.toNat_ofNat_of_lt' (Nat.lt_succ_of_le hn), length_paddedConstants]
  have hpool := Reader.takes_constantPool_long linked_paddedConstants hcount 8
  obtain ⟨depth, hdepth⟩ : ∃ depth, (paddedBytes n).length = depth + 2 :=
    ⟨(paddedBytes n).length - 2, by
      simp only [paddedBytes, List.length_append, Bytes.length_ofUInt16]
      omega⟩
  have hpoolEnd : (padded n).poolEnd
      = 8 + (Bytes.ofUInt16 (UInt16.ofNat (n + 7)) ++ paddedPool n).length := by
    simp only [padded, List.length_append, Bytes.length_ofUInt16]
    omega
  have hmembers : (Reader.members (paddedBytes n).length 0 52 (padded n).pool (padded n).poolEnd).Takes
      (padded n).poolEnd idleMembers (padded n) := by
    rw [hdepth]
    refine Reader.takes_members_iff.2 ⟨_, _, _, _, [], rfl, Reader.takes_counted_nil _,
      Reader.takes_counted_nil _, ?_, Reader.takes_counted_nil _, rfl, rfl, rfl, rfl⟩
    exact (Reader.takes_counted_iff (Reader.definite_method _ _)).2
      ⟨Nat.lt_of_sub_eq_succ rfl, _, rfl, _, [], (List.append_nil _).symm, takes_idleMethod _ _, rfl⟩
  have hbytes : paddedBytes n = (padded n).head ++ (Bytes.ofUInt16 (UInt16.ofNat (n + 7))
      ++ paddedPool n ++ (idleMembers ++ [])) := by
    rw [List.append_nil]
    rfl
  rw [hbytes] at hmembers ⊢
  exact read_of_parts hpool hpoolEnd hmembers

/-- The idle body takes a call at entry, whatever octets it was read from. -/
theorem exists_insertHooks_idleBody (bytes : Bytes) :
    ∃ content, idleBody.insertHooks bytes ⟨[5], []⟩ = .ok content := by
  have hcheck : (idleBody.insertHooks [] ⟨[5], []⟩).isOk = true := by decide +kernel
  have hsame : idleBody.insertHooks bytes ⟨[5], []⟩ = idleBody.insertHooks [] ⟨[5], []⟩ := rfl
  exact hsame ▸ exists_of_isOk hcheck

/-- Whatever octets it was read from, the class is woven, and the constants of the hook begin with index
0. -/
theorem exists_run_padded (bytes : Bytes) :
    ∃ results x,
      (entering.entries.mapM (spliceMethod bytes (padded 65528).methods.toArray)).run
        (.start (padded 65528).pool.count) = .ok (results, x)
      ∧ x = PoolExtension.mk 6 [(.methodRef 1 4, 5), (.nameAndType 2 3, 4), (.utf8 "()V", 3),
        (.utf8 "onMethodEnter", 2), (.classInfo 0, 1), (.utf8 "H", 0)]
      ∧ ∃ out, weave bytes (padded 65528) entering = .ok (some out) := by
  have hcount : (padded 65528).pool.count = 0 := by
    rw [ConstantPool.count, size_slots_padded]
    rfl
  obtain ⟨content, hcontent⟩ := exists_insertHooks_idleBody bytes
  obtain ⟨span, hmethods⟩ : ∃ span, (padded 65528).methods
      = [⟨9, 3, 4, [⟨5, span, .code idleBody⟩]⟩] := ⟨_, rfl⟩
  obtain ⟨x, hx⟩ : ∃ x, x = PoolExtension.mk 6 [(.methodRef 1 4, 5), (.nameAndType 2 3, 4),
    (.utf8 "()V", 3), (.utf8 "onMethodEnter", 2), (.classInfo 0, 1), (.utf8 "H", 0)] := ⟨_, rfl⟩
  have hrefs : hookRefs [⟨"H", true, false⟩] (.start 0) = .ok (⟨[5], []⟩, x) := by
    rw [hx]
    rfl
  have hsplice : spliceMethod bytes (padded 65528).methods.toArray (0, [⟨"H", true, false⟩]) (.start 0)
      = .ok (some ⟨span, encodeAttribute 5 content⟩, x) := by
    rw [hmethods]
    refine bind_eq_ok_iff.2 ⟨_, _, hrefs, ?_⟩
    exact bind_eq_ok_iff.2 ⟨content, x, lift_eq_ok_iff.2 ⟨hcontent, rfl⟩, rfl⟩
  have hrun : (entering.entries.mapM (spliceMethod bytes (padded 65528).methods.toArray)).run
      (.start (padded 65528).pool.count) = .ok ([some ⟨span, encodeAttribute 5 content⟩], x) := by
    rw [hcount]
    exact bind_eq_ok_iff.2 ⟨_, _, hsplice, rfl⟩
  have hweave : ∃ out, weave bytes (padded 65528) entering = .ok (some out) := by
    unfold weave
    rw [hrun]
    exact ⟨_, rfl⟩
  exact ⟨_, x, hrun, hx, hweave⟩

/-- The first eight constants are the same in every such pool. -/
theorem paddedPool_add (n : Nat) : ∃ rest,
    paddedPool (n + 3) = (paddedConstants 3).flatMap Constant.encode ++ rest := by
  have hsplit : paddedConstants (n + 3) = paddedConstants 3 ++ List.replicate n (.utf8 "") := by
    rw [Nat.add_comm, paddedConstants, List.replicate_add, ← List.append_assoc]
    rfl
  rw [paddedPool, hsplit, List.flatMap_append, List.append_assoc]
  exact ⟨_, rfl⟩

/-- Constants that are begun at index 0 are counted from there. -/
theorem exists_weave_rounding {n : Nat} (hcount : (padded (n + 3)).pool.count = 0) :
    ∃ rest, weave (paddedBytes (n + 3)) (padded (n + 3)) rounding
      = .ok (some ((padded (n + 3)).head
        ++ ((Bytes.ofUInt16 9 ++ (paddedConstants 3).flatMap Constant.encode) ++ rest))) := by
  obtain ⟨rest, hpool⟩ := paddedPool_add n
  have hhead : (paddedBytes (n + 3)).slice 0 8 = (padded (n + 3)).head :=
    Bytes.HasAt.slice_eq ⟨[], _, rfl, rfl⟩
  have hbetween : (paddedBytes (n + 3)).slice 10 (padded (n + 3)).poolEnd = paddedPool (n + 3) := by
    refine Bytes.HasAt.slice_eq
      ⟨(padded (n + 3)).head ++ Bytes.ofUInt16 (UInt16.ofNat (n + 3 + 7)), idleMembers, ?_, rfl⟩
    simp [paddedBytes]
  rw [hpool] at hbetween
  obtain ⟨content, hinsert⟩ : ∃ content, ∀ bytes, idleBody.insertHooks bytes ⟨[5], [8]⟩
      = .ok content := by
    refine ⟨[0, 0, 0, 0, 0, 0, 0, 8] ++ [0xB8, 0, 5, 0, 0xB8, 0, 8, 0xB1] ++ [0, 0, 0, 0],
      fun bytes => ?_⟩
    show idleBody.insertHooks [] ⟨[5], [8]⟩ = _
    decide +kernel
  obtain ⟨span, hmethods⟩ : ∃ span, (padded (n + 3)).methods
      = [⟨9, 3, 4, [⟨5, span, .code idleBody⟩]⟩] := ⟨_, rfl⟩
  obtain ⟨x, hx⟩ : ∃ x, x = PoolExtension.mk 9 [(.methodRef 1 7, 8), (.nameAndType 6 3, 7),
    (.utf8 "onMethodExit", 6), (.methodRef 1 4, 5), (.nameAndType 2 3, 4), (.utf8 "()V", 3),
    (.utf8 "onMethodEnter", 2), (.classInfo 0, 1), (.utf8 "H", 0)] := ⟨_, rfl⟩
  have hrefs : hookRefs [⟨"H", true, true⟩] (.start 0) = .ok (⟨[5], [8]⟩, x) := by
    rw [hx]
    rfl
  have hsplice : spliceMethod (paddedBytes (n + 3)) (padded (n + 3)).methods.toArray
      (0, [⟨"H", true, true⟩]) (.start 0) = .ok (some ⟨span, encodeAttribute 5 content⟩, x) := by
    rw [hmethods]
    refine bind_eq_ok_iff.2 ⟨_, _, hrefs, ?_⟩
    exact bind_eq_ok_iff.2 ⟨content, x, lift_eq_ok_iff.2 ⟨hinsert _, rfl⟩, rfl⟩
  have hrun : (rounding.entries.mapM (spliceMethod (paddedBytes (n + 3))
      (padded (n + 3)).methods.toArray)).run (.start (padded (n + 3)).pool.count)
      = .ok ([some ⟨span, encodeAttribute 5 content⟩], x) := by
    rw [hcount]
    exact bind_eq_ok_iff.2 ⟨_, _, hsplice, rfl⟩
  have hx : x.count = 9 := by rw [hx]; rfl
  rw [weave, hrun]
  refine ⟨rest ++ (x.encode ++ applySplices (padded (n + 3)).poolEnd
    ((paddedBytes (n + 3)).drop (padded (n + 3)).poolEnd) [⟨span, encodeAttribute 5 content⟩]), ?_⟩
  show Except.ok (some _) = _
  rw [hhead, hbetween, hx]
  simp only [List.append_assoc]
  rfl

/-- A pool that counts nine slots holds the first eight constants. -/
theorem takes_constantPool_nine : Reader.constantPool.Takes 8
    (Bytes.ofUInt16 9 ++ (paddedConstants 3).flatMap Constant.encode)
    ⟨#[none] ++ ((paddedConstants 3).map some).toArray⟩ := by
  refine (Reader.takes_u2 9 8).bind fun rest => ?_
  have hslots := Reader.slotsOnto_linked (linked_paddedConstants (n := 3)) 0 #[none] 10 rest
  rw [Reader.slotsOnto] at hslots
  exact bind_eq_ok_iff.2 ⟨_, _, hslots, rfl⟩

/-- **A class with a slot too many** is woven, although there is no room for what the plan needs. The
constants of the hook begin with index 0, which stands for nothing. -/
theorem weave_padded :
    ClassFile.read (paddedBytes 65528) = .ok (padded 65528)
      ∧ 65535 < (padded 65528).pool.slots.size
      ∧ ∃ results x,
        (entering.entries.mapM (spliceMethod (paddedBytes 65528) (padded 65528).methods.toArray)).run
          (.start (padded 65528).pool.count) = .ok (results, x)
        ∧ (.utf8 "H", 0) ∈ x.appended
        ∧ ∃ out, weave (paddedBytes 65528) (padded 65528) entering = .ok (some out) := by
  have hsize : (padded 65528).pool.slots.size = 65536 := size_slots_padded
  refine ⟨read_paddedBytes (by decide), by rw [hsize]; decide, ?_⟩
  obtain ⟨results, x, hrun, hx, hweave⟩ := exists_run_padded (paddedBytes 65528)
  exact ⟨results, x, hrun, by simp [hx], hweave⟩

end ClassFile

end AdviceWeaver

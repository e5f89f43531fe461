import AdviceWeaver.Proofs.ClassFile.Tables
import AdviceWeaver.Proofs.Text.Utf8

/-!
# Written constant pools

Constants of every kind are read back as they were written, and fill as many slots as they take. When
constants of one slot are written behind those of a pool, and counted, the pool is read with them: what
was there keeps its slots, and the new ones follow (`ConstantPool.extend`).

## Main results

* `Reader.takes_constant` — a written constant is read back.
* `Reader.slotsOnto_encode` — written constants fill their slots.
* `Reader.constantPool_extend` — a pool is read with the constants that were put behind it.
-/

namespace AdviceWeaver

/-! ### Constants -/

namespace Constant

/-- Whether a constant can be written: the length of a text is told by 16 bits. -/
def Fits : Constant → Prop
  | .utf8 text => text.utf8ByteSize ≤ 65535
  | _ => True

/-- The constants that hook calls are made of. All of them take one slot. -/
def IsLinked : Constant → Prop
  | .utf8 text => text.utf8ByteSize ≤ 65535
  | .classInfo _ | .nameAndType .. | .methodRef .. => True
  | _ => False

namespace IsLinked

variable {k : Constant} (h : k.IsLinked)

include h

theorem fits : k.Fits := by
  cases k <;> first | exact h | exact trivial

theorem isWide_eq : k.isWide = false := by
  cases k <;> first | rfl | exact h.elim

end IsLinked

/-- Linked constants take a slot each. -/
theorem slots_linked {constants : List Constant} (h : ∀ k ∈ constants, k.IsLinked) :
    constants.flatMap slots = constants.map some := by
  induction constants with
  | nil => rfl
  | cons k more ih =>
    have hk : k.slots = [some k] := by
      rw [slots, (h k List.mem_cons_self).isWide_eq, if_neg (by decide)]
    rw [List.flatMap_cons, List.map_cons, hk, ih fun k' hk' => h k' (List.mem_cons_of_mem k hk')]
    rfl

end Constant

/-- A pool with more constants behind its own. -/
def ConstantPool.extend (pool : ConstantPool) (constants : List Constant) : ConstantPool :=
  ⟨pool.slots ++ (constants.map some).toArray⟩

namespace Reader

/-- **A written constant** is read back, of whatever kind it is. -/
theorem takes_constant {k : Constant} (h : k.Fits) (offset : Nat) :
    constant.Takes offset k.encode k := by
  have hwide (f : UInt32 → UInt32 → Constant) (n : UInt64) (offset : Nat) :
      (u4 >>= fun high => u4 >>= fun low => pure (f high low)).Takes offset (Bytes.ofUInt64 n)
        (f (UInt32.ofNat (n.toNat / 4294967296)) (UInt32.ofNat n.toNat)) := by
    rw [Bytes.ofUInt64, ← List.append_nil (Bytes.ofUInt32 (UInt32.ofNat n.toNat))]
    exact (takes_u4 _ _).bind ((takes_u4 _ _).bind (takes_pure _ _))
  have hword (f : UInt32 → Constant) (n : UInt32) (offset : Nat) :
      (u4 >>= fun n => pure (f n)).Takes offset (Bytes.ofUInt32 n) (f n) := by
    rw [← List.append_nil (Bytes.ofUInt32 n)]
    exact (takes_u4 _ _).bind (takes_pure _ _)
  cases k with
  | utf8 text =>
    have hlength : (UInt16.ofNat text.utf8ByteSize).toNat = (Text.Utf8.encode text).length := by
      rw [Text.Utf8.length_encode]
      exact UInt16.toNat_ofNat_of_lt' (Nat.lt_succ_of_le h)
    have hoctets : (Constant.utf8 text).encode = [1] ++ (Bytes.ofUInt16
        (UInt16.ofNat text.utf8ByteSize) ++ (Text.Utf8.encode text ++ [])) := by
      simp [Constant.encode, Constant.tag, Constant.payload]
    have hbytes := takes_bytes (Text.Utf8.encode text) (offset + 1 + 2)
    rw [← hlength] at hbytes
    rw [hoctets]
    refine (takes_u1 1 offset).bind ((takes_u2 _ _).bind (hbytes.bind ?_))
    rw [Text.Utf8.decode_encode]
    exact takes_pure _ _
  | integer value =>
    have hread := hword (fun n => .integer n.toInt32) value.toUInt32 (offset + 1)
    rw [Int32.toInt32_toUInt32] at hread
    exact (takes_u1 3 offset).bind hread
  | float bits => exact (takes_u1 4 offset).bind (hword .float bits _)
  | long value =>
    have hread :=
      hwide (fun high low => .long (Bytes.toUInt64 high low).toInt64) value.toUInt64 (offset + 1)
    rw [Bytes.toUInt64_ofUInt64, Int64.toInt64_toUInt64] at hread
    exact (takes_u1 5 offset).bind hread
  | double bits =>
    have hread := hwide (fun high low => .double (Bytes.toUInt64 high low)) bits (offset + 1)
    rw [Bytes.toUInt64_ofUInt64] at hread
    exact (takes_u1 6 offset).bind hread
  | classInfo name => exact (takes_u1 7 offset).bind (takes_one_iff.2 ⟨name, rfl, rfl⟩)
  | string text => exact (takes_u1 8 offset).bind (takes_one_iff.2 ⟨text, rfl, rfl⟩)
  | fieldRef owner nameAndType =>
    exact (takes_u1 9 offset).bind (takes_two_iff.2 ⟨owner, nameAndType, rfl, rfl⟩)
  | methodRef owner nameAndType =>
    exact (takes_u1 10 offset).bind (takes_two_iff.2 ⟨owner, nameAndType, rfl, rfl⟩)
  | interfaceMethodRef owner nameAndType =>
    exact (takes_u1 11 offset).bind (takes_two_iff.2 ⟨owner, nameAndType, rfl, rfl⟩)
  | nameAndType name descriptor =>
    exact (takes_u1 12 offset).bind (takes_two_iff.2 ⟨name, descriptor, rfl, rfl⟩)
  | methodHandle kind reference =>
    exact (takes_u1 15 offset).bind ((takes_u1 kind _).bind (takes_one_iff.2 ⟨reference, rfl, rfl⟩))
  | methodType descriptor =>
    exact (takes_u1 16 offset).bind (takes_one_iff.2 ⟨descriptor, rfl, rfl⟩)
  | dynamic bootstrap nameAndType =>
    exact (takes_u1 17 offset).bind (takes_two_iff.2 ⟨bootstrap, nameAndType, rfl, rfl⟩)
  | invokeDynamic bootstrap nameAndType =>
    exact (takes_u1 18 offset).bind (takes_two_iff.2 ⟨bootstrap, nameAndType, rfl, rfl⟩)
  | module name => exact (takes_u1 19 offset).bind (takes_one_iff.2 ⟨name, rfl, rfl⟩)
  | package name => exact (takes_u1 20 offset).bind (takes_one_iff.2 ⟨name, rfl, rfl⟩)

/-! ### Slots -/

/-- Every slot that is missing is filled by the next constant. -/
theorem slotsOnto_succ (missing : Nat) (slots : Array (Option Constant)) :
    slotsOnto (missing + 1) slots = constant >>= fun k =>
      if k.isWide then slotsOnto (missing - 1) ((slots.push (some k)).push none)
      else slotsOnto missing (slots.push (some k)) := by
  funext c
  have hbind : (constant >>= fun k =>
      if k.isWide then slotsOnto (missing - 1) ((slots.push (some k)).push none)
      else slotsOnto missing (slots.push (some k))) c = constant c >>= fun p =>
        (if p.1.isWide then slotsOnto (missing - 1) ((slots.push (some p.1)).push none)
        else slotsOnto missing (slots.push (some p.1))) p.2 := rfl
  rw [slotsOnto, hbind]
  cases constant c with
  | error e => rfl
  | ok p =>
    show (if p.1.isWide then slotsOnto (missing - 1) ((slots.push (some p.1)).push none) p.2
        else slotsOnto missing (slots.push (some p.1)) p.2)
      = (if p.1.isWide then slotsOnto (missing - 1) ((slots.push (some p.1)).push none)
        else slotsOnto missing (slots.push (some p.1))) p.2
    split <;> rfl

/-- Where no slot is missing nothing is read. -/
theorem slotsOnto_zero (slots : Array (Option Constant)) : slotsOnto 0 slots = pure slots := by
  funext c
  rw [slotsOnto]
  rfl

/-- The slots of a pool are read one constant after the other, by induction on the slots that are
missing. -/
theorem definite_slotsOnto (missing : Nat) (slots : Array (Option Constant)) :
    (slotsOnto missing slots).Definite := by
  induction missing using Nat.strongRecOn generalizing slots with
  | ind missing ih =>
    cases missing with
    | zero =>
      rw [slotsOnto_zero]
      exact definite_pure slots
    | succ missing =>
      rw [slotsOnto_succ]
      exact plain_constant.definite.bind fun k => (ih _ (by omega) _).ite (ih _ (by omega) _)

theorem definite_constantPool : Definite constantPool :=
  definite_u2.bind fun _ => (definite_slotsOnto _ _).bind fun _ => definite_pure _

/-- A long constant or a double takes its slot and an empty one behind it. -/
theorem append_slots_of_isWide {k : Constant} (hwide : k.isWide = true)
    (slots : Array (Option Constant)) :
    slots ++ k.slots.toArray = (slots.push (some k)).push none := by
  rw [show k.slots = [some k, none] from if_pos hwide]
  exact Array.toList_inj.1 (by simp)

/-- Any other constant takes one slot. -/
theorem append_slots_of_not_isWide {k : Constant} (hwide : ¬ k.isWide = true)
    (slots : Array (Option Constant)) : slots ++ k.slots.toArray = slots.push (some k) := by
  rw [show k.slots = [some k] from if_neg hwide]
  exact Array.toList_inj.1 (by simp)

/-- **One constant** fills its slots, and the reader goes on with those that are still missing. -/
theorem slotsOnto_of_takes {k : Constant} {offset : Nat} {octets : Bytes}
    (h : constant.Takes offset octets k) (missing : Nat) (slots : Array (Option Constant))
    (rest : Bytes) :
    slotsOnto (k.slots.length + missing) slots ⟨offset, octets ++ rest⟩
      = slotsOnto missing (slots ++ k.slots.toArray) ⟨offset + octets.length, rest⟩ := by
  by_cases hwide : k.isWide = true
  · have hcount : k.slots.length + missing = (missing + 1) + 1 := by
      rw [show k.slots = [some k, none] from if_pos hwide]
      exact Nat.add_comm 2 missing
    rw [append_slots_of_isWide hwide, hcount, slotsOnto, h]
    simp only [hwide, if_true, Nat.add_sub_cancel]
  · have hcount : k.slots.length + missing = missing + 1 := by
      rw [show k.slots = [some k] from if_neg hwide]
      exact Nat.add_comm 1 missing
    rw [append_slots_of_not_isWide hwide, hcount, slotsOnto, h]
    simp only [hwide, Bool.false_eq_true, if_false]

/-- **Written constants** fill their slots, and if more slots are missing, the reader goes on behind
them. -/
theorem slotsOnto_encode {constants : List Constant} (h : ∀ k ∈ constants, k.Fits) (missing : Nat)
    (slots : Array (Option Constant)) (offset : Nat) (rest : Bytes) :
    slotsOnto ((constants.flatMap Constant.slots).length + missing) slots
        ⟨offset, constants.flatMap Constant.encode ++ rest⟩
      = slotsOnto missing (slots ++ (constants.flatMap Constant.slots).toArray)
          ⟨offset + (constants.flatMap Constant.encode).length, rest⟩ := by
  induction constants generalizing slots offset with
  | nil => simp
  | cons k more ih =>
    have hk : constant.Takes offset k.encode k := takes_constant (h k List.mem_cons_self) offset
    have hslots : slots ++ (k.slots ++ more.flatMap Constant.slots).toArray
        = slots ++ k.slots.toArray ++ (more.flatMap Constant.slots).toArray :=
      Array.toList_inj.1 (by simp)
    rw [List.flatMap_cons, List.flatMap_cons, List.length_append, Nat.add_assoc, List.append_assoc,
      slotsOnto_of_takes hk, ih fun k' hk' => h k' (List.mem_cons_of_mem k hk'), hslots,
      List.length_append, Nat.add_assoc]

/-- Linked constants fill as many slots. -/
theorem slotsOnto_linked {constants : List Constant} (h : ∀ k ∈ constants, k.IsLinked)
    (missing : Nat) (slots : Array (Option Constant)) (offset : Nat) (rest : Bytes) :
    slotsOnto (constants.length + missing) slots
        ⟨offset, constants.flatMap Constant.encode ++ rest⟩
      = slotsOnto missing (slots ++ (constants.map some).toArray)
          ⟨offset + (constants.flatMap Constant.encode).length, rest⟩ := by
  have hread := slotsOnto_encode (fun k hk => (h k hk).fits) missing slots offset rest
  rwa [Constant.slots_linked h, List.length_map] at hread

/-- From one cursor to another `octets` are taken, and `used` slots are filled. If more slots are asked
for, the reader goes on where it stopped before. -/
structure Fills (slots slots' : Array (Option Constant)) (c c' : Cursor) (octets : Bytes) (used : Nat) :
    Prop where
  rest : c.rest = octets ++ c'.rest
  offset : c'.offset = c.offset + octets.length
  size : slots'.size = slots.size + used
  more (extra : Nat) (rest : Bytes) : slotsOnto (used + extra) slots ⟨c.offset, octets ++ rest⟩
    = slotsOnto extra slots' ⟨c.offset + octets.length, rest⟩

/-- One constant in front fills its slots, and the others fill what is left. -/
theorem Fills.cons {used : Nat} {slots slots' : Array (Option Constant)} {c c₁ c' : Cursor}
    {octets : Bytes} {k : Constant} (hread : constant c = .ok (k, c₁))
    (h : Fills (slots ++ k.slots.toArray) slots' c₁ c' octets used) :
    ∃ octets', Fills slots slots' c c' octets' (k.slots.length + used) := by
  obtain ⟨front, hrest, hoffset, htakes⟩ := plain_constant.definite _ _ _ hread
  refine ⟨front ++ octets, ⟨?_, ?_, ?_, fun extra rest => ?_⟩⟩
  · rw [hrest, h.rest, List.append_assoc]
  · rw [h.offset, hoffset, List.length_append, Nat.add_assoc]
  · rw [h.size, Array.size_append, Nat.add_assoc]
    rfl
  · rw [Nat.add_assoc, List.append_assoc, slotsOnto_of_takes htakes, ← hoffset, h.more, hoffset,
      List.length_append, Nat.add_assoc]

/-- **Filling slots** takes constants from the front, by induction on the slots that are missing. -/
theorem exists_fills {missing : Nat} {slots slots' : Array (Option Constant)} {c c' : Cursor}
    (h : slotsOnto missing slots c = .ok (slots', c')) :
    ∃ octets used, Fills slots slots' c c' octets used := by
  fun_induction slotsOnto missing slots c with
  | case1 slots c =>
    cases h
    exact ⟨[], 0, rfl, rfl, rfl, by simp⟩
  | case2 => cases h
  | case3 slots c missing k c₁ hread hwide ih =>
    rw [← append_slots_of_isWide hwide] at ih h
    obtain ⟨octets, used, hfills⟩ := ih h
    obtain ⟨octets', hall⟩ := hfills.cons hread
    exact ⟨octets', _, hall⟩
  | case4 slots c missing k c₁ hread hwide ih =>
    rw [← append_slots_of_not_isWide hwide] at ih h
    obtain ⟨octets, used, hfills⟩ := ih h
    obtain ⟨octets', hall⟩ := hfills.cons hread
    exact ⟨octets', _, hall⟩

/-- **A pool with more constants.** The octets of a pool, behind another count and in front of the
octets of more constants, are read as the pool with these. -/
theorem constantPool_extend {c c' : Cursor} {pool : ConstantPool}
    (h : constantPool c = .ok (pool, c')) :
    ∃ count octets, c.rest = Bytes.ofUInt16 count ++ octets ++ c'.rest
      ∧ c'.offset = c.offset + 2 + octets.length ∧ 0 < pool.slots.size
      ∧ ∀ constants : List Constant, (∀ k ∈ constants, k.IsLinked) →
        pool.slots.size + constants.length ≤ 65535 →
        constantPool.Takes c.offset
          (Bytes.ofUInt16 (UInt16.ofNat (pool.slots.size + constants.length)) ++ octets
            ++ constants.flatMap Constant.encode) (pool.extend constants) := by
  obtain ⟨count, c₁, hcount, hpool⟩ := bind_eq_ok_iff.1 h
  obtain ⟨slots, c₂, hslots, hpure⟩ := bind_eq_ok_iff.1 hpool
  obtain ⟨rfl, rfl⟩ := pure_eq_ok_iff.1 hpure
  obtain ⟨front, hrest, hoffset, htakes⟩ := definite_u2 _ _ _ hcount
  obtain rfl := takes_u2_iff.1 htakes
  obtain ⟨octets, used, hrest', hoffset', hsize, hmore⟩ := exists_fills hslots
  refine ⟨count, octets, ?_, ?_, ?_, ?_⟩
  · rw [hrest, hrest', List.append_assoc]
  · rw [hoffset', hoffset, Bytes.length_ofUInt16]
  · rw [hsize]
    exact Nat.lt_of_lt_of_le Nat.zero_lt_one (Nat.le_add_right 1 used)
  · intro constants hlinked hle
    have hcount' : (UInt16.ofNat (slots.size + constants.length)).toNat - 1
        = used + constants.length := by
      rw [UInt16.toNat_ofNat_of_lt' (Nat.lt_succ_of_le hle), hsize]
      simp only [List.size_toArray, List.length_singleton]
      omega
    rw [List.append_assoc]
    refine (takes_u2 _ _).bind ?_
    rw [hcount']
    intro rest
    have hread := hmore constants.length (constants.flatMap Constant.encode ++ rest)
    have hlast := slotsOnto_linked hlinked 0 slots (c₁.offset + octets.length) rest
    rw [Nat.add_zero] at hlast
    rw [hlast, slotsOnto, hoffset, ← List.append_assoc] at hread
    refine bind_eq_ok_iff.2 ⟨_, _, hread, pure_eq_ok_iff.2 ⟨rfl, ?_⟩⟩
    simp [Nat.add_assoc]

end Reader

/-! ### What an extended pool holds -/

namespace ConstantPool

variable {pool : ConstantPool} {constants : List Constant} {index : UInt16}

/-- A constant is found at an index that is not zero and whose slot holds it. -/
theorem get_eq_ok_iff {k : Constant} :
    pool.get index = .ok k ↔ index ≠ 0 ∧ pool.slots[index.toNat]? = some (some k) := by
  unfold get
  split
  · next h => simp [h]
  · next h =>
    split
    · next hslot => simp [h, hslot]
    · next hslot =>
      constructor
      · intro hget
        cases hget
      · rintro ⟨-, hk⟩
        exact absurd hk (hslot k)

/-- Constants that are appended leave the slots in front as they are. -/
theorem slots_extend {position : Nat} (h : position < pool.slots.size) :
    (pool.extend constants).slots[position]? = pool.slots[position]? :=
  Array.getElem?_append_left h

/-- Each constant that is appended takes one slot. -/
theorem size_slots_extend :
    (pool.extend constants).slots.size = pool.slots.size + constants.length := by
  simp [extend]

/-- **What was there** keeps its index. -/
theorem get_extend {k : Constant} (h : pool.get index = .ok k) :
    (pool.extend constants).get index = .ok k := by
  obtain ⟨hne, hslot⟩ := get_eq_ok_iff.1 h
  refine get_eq_ok_iff.2 ⟨hne, ?_⟩
  obtain ⟨hlt, -⟩ := Array.getElem?_eq_some_iff.1 hslot
  rw [slots_extend hlt, hslot]

/-- **What is new** follows what was there. -/
theorem get_extend_new {k : Constant} {position : Nat} (hpos : 0 < pool.slots.size)
    (hle : pool.slots.size + position ≤ 65535) (h : constants[position]? = some k) :
    (pool.extend constants).get (UInt16.ofNat (pool.slots.size + position)) = .ok k := by
  have hindex : (UInt16.ofNat (pool.slots.size + position)).toNat = pool.slots.size + position :=
    UInt16.toNat_ofNat_of_lt' (Nat.lt_succ_of_le hle)
  refine get_eq_ok_iff.2 ⟨?_, ?_⟩
  · rw [ne_eq, ← UInt16.toNat_inj, hindex]
    exact Nat.ne_of_gt (Nat.add_pos_left hpos position)
  · rw [hindex, extend, Array.getElem?_append_right (Nat.le_add_right ..)]
    simp [h]

/-- A text is found where a constant of that text is. -/
theorem getText_eq_ok_iff {text : String} :
    pool.getText index = .ok text ↔ pool.get index = .ok (.utf8 text) := by
  simp only [getText, except_bind_eq_ok]
  constructor
  · rintro ⟨k, hk, h⟩
    cases k with
    | utf8 text' =>
      obtain rfl := except_pure_eq_ok.1 h
      exact hk
    | _ => cases h
  · intro h
    exact ⟨_, h, rfl⟩

/-- A text is still found when constants are appended. -/
theorem getText_extend {text : String} (h : pool.getText index = .ok text) :
    (pool.extend constants).getText index = .ok text :=
  getText_eq_ok_iff.2 (get_extend (getText_eq_ok_iff.1 h))

end ConstantPool

end AdviceWeaver

import AdviceWeaver.Proofs.ClassFile.Attributes
import AdviceWeaver.Proofs.ClassFile.Pool

/-!
# The parts of a class file

A class file is its header, its constant pool, and its members: flags and names, fields, methods and
attributes. What was read of each splits into the octets of the parts.

## Main results

* `Reader.takes_members_iff` — the octets of the members.
* `ClassFile.of_read`, `ClassFile.read_of_parts` — what a class is read from.
-/

namespace AdviceWeaver

/-- The octets of a method in front of its attributes. -/
def MethodInfo.front (m : MethodInfo) : Bytes :=
  Bytes.ofUInt16 m.access ++ Bytes.ofUInt16 m.name ++ Bytes.ofUInt16 m.descriptor

@[simp] theorem MethodInfo.length_front (m : MethodInfo) : m.front.length = 6 := rfl

namespace Reader

variable {pool pool' : ConstantPool} {depth n : Nat} {offset : Nat} {octets : Bytes}

/-! ### Methods and fields -/

/-- A method is its access flags, its name, its descriptor and its attributes. -/
theorem method_eq (pool : ConstantPool) (depth : Nat) :
    method pool depth = u2 >>= fun access => u2 >>= fun name => u2 >>= fun descriptor =>
      attributes pool depth >>= fun attributes => pure ⟨access, name, descriptor, attributes⟩ :=
  rfl

/-- A method is read without looking behind its attributes. -/
theorem definite_method (pool : ConstantPool) (depth : Nat) : (method pool depth).Definite := by
  rw [method_eq]
  exact definite_u2.bind fun _ => definite_u2.bind fun _ => definite_u2.bind fun _ =>
    (definite_attributes pool depth).bind fun _ => definite_pure _

/-- **The octets of a method** are its front and what its attributes were read from. -/
theorem takes_method_iff {m : MethodInfo} :
    (method pool depth).Takes offset octets m
      ↔ ∃ each, octets = m.front ++ each
          ∧ (attributes pool depth).Takes (offset + 6) each m.attributes := by
  rw [method_eq]
  constructor
  · intro h
    obtain ⟨access, _, rfl, h₁⟩ := takes_u2_bind_iff.1 h
    obtain ⟨name, _, rfl, h₂⟩ := takes_u2_bind_iff.1 h₁
    obtain ⟨descriptor, _, rfl, h₃⟩ := takes_u2_bind_iff.1 h₂
    obtain ⟨list, each, _, rfl, hlist, h₄⟩ := (definite_attributes pool depth).takes_bind_iff.1 h₃
    obtain ⟨rfl, rfl⟩ := takes_pure_iff.1 h₄
    exact ⟨each, by simp [MethodInfo.front], hlist⟩
  · rintro ⟨each, rfl, hlist⟩
    have hoctets : m.front ++ each = Bytes.ofUInt16 m.access ++ (Bytes.ofUInt16 m.name
        ++ (Bytes.ofUInt16 m.descriptor ++ (each ++ []))) := by
      simp [MethodInfo.front]
    rw [hoctets]
    exact (takes_u2 _ _).bind ((takes_u2 _ _).bind ((takes_u2 _ _).bind
      (hlist.bind (takes_pure m _))))

/-- A field is six octets and its attributes. -/
theorem field_eq (pool : ConstantPool) (depth : Nat) :
    field pool depth = bytes 6 >>= fun _ => attributes pool depth >>= fun _ => pure () :=
  rfl

/-- A field is read without looking behind its attributes. -/
theorem definite_field (pool : ConstantPool) (depth : Nat) : (field pool depth).Definite := by
  rw [field_eq]
  exact (definite_bytes 6).bind fun _ => (definite_attributes pool depth).bind fun _ =>
    definite_pure _

/-- The octets of a field are a front of six and then its attributes. -/
theorem takes_field_iff {u : Unit} :
    (field pool depth).Takes offset octets u
      ↔ ∃ front each list, octets = front ++ each ∧ front.length = 6
          ∧ (attributes pool depth).Takes (offset + 6) each list := by
  rw [field_eq]
  constructor
  · intro h
    obtain ⟨front, _, _, rfl, hfront, h₁⟩ := (definite_bytes 6).takes_bind_iff.1 h
    obtain ⟨rfl, hlength⟩ := takes_bytes_iff.1 hfront
    obtain ⟨list, each, _, rfl, hlist, h₂⟩ := (definite_attributes pool depth).takes_bind_iff.1 h₁
    obtain ⟨rfl, -⟩ := takes_pure_iff.1 h₂
    exact ⟨_, each, list, by rw [List.append_nil], hlength, hlength ▸ hlist⟩
  · rintro ⟨front, each, list, rfl, hlength, hlist⟩
    rw [← each.append_nil]
    refine (takes_bytes_iff.2 ⟨rfl, hlength⟩ : (bytes 6).Takes offset front front).bind ?_
    rw [← hlength] at hlist
    exact hlist.bind (takes_pure () _)

/-- Fields are read again, wherever they stand. -/
theorem takes_fields
    (hpool : ∀ {index text}, pool.getText index = .ok text → pool'.getText index = .ok text)
    {fields : List Unit} (h : (counted (field pool depth)).Takes offset octets fields)
    (hn : octets.length ≤ n) (offset' : Nat) :
    ∃ fields', (counted (field pool' n)).Takes offset' octets fields' := by
  have hfield (offset offset' : Nat) (octets : Bytes) (u : Unit) (hle : octets.length ≤ n)
      (h : (field pool depth).Takes offset octets u) :
      ∃ u', (field pool' n).Takes offset' octets u' ∧ u = u' := by
    obtain ⟨front, each, list, rfl, hlength, hlist⟩ := takes_field_iff.1 h
    rw [List.length_append] at hle
    obtain ⟨list', hlist', -⟩ :=
      carries_attributes hpool depth n _ (offset' + 6) each _ (by omega) hlist
    exact ⟨(), takes_field_iff.2 ⟨front, each, list', rfl, hlength, hlist'⟩, rfl⟩
  obtain ⟨hcount, each, rfl, heach⟩ := (takes_counted_iff (definite_field pool depth)).1 h
  rw [List.length_append] at hn
  obtain ⟨fields', heach', hsame⟩ := exists_takesEach hfield (by omega) heach
  exact ⟨fields', (takes_counted_iff (definite_field pool' n)).2
    ⟨hsame.length_eq ▸ hcount, each, hsame.length_eq ▸ rfl, heach'⟩⟩

/-! ### Members of a class -/

/-- What a class file holds behind its constant pool. -/
def members (depth : Nat) (minorVersion majorVersion : UInt16) (pool : ConstantPool)
    (poolEnd : Nat) : Reader ClassFile :=
  u2 >>= fun access => u2 >>= fun thisClass => u2 >>= fun superClass =>
    counted u2 >>= fun interfaces => counted (field pool depth) >>= fun _ =>
      counted (method pool depth) >>= fun methods => attributes pool depth >>= fun attributes =>
        pure { minorVersion, majorVersion, pool, poolEnd, access, thisClass, superClass, interfaces,
               methods, attributes }

/-- A class is its magic number, its version, its pool and what follows the pool. -/
theorem classFile_eq (depth : Nat) :
    classFile depth = u4 >>= fun magic => if magic ≠ 0xCAFEBABE then throw (.badMagic magic)
      else u2 >>= fun minorVersion => u2 >>= fun majorVersion => constantPool >>= fun pool =>
        Reader.offset >>= fun poolEnd => members depth minorVersion majorVersion pool poolEnd :=
  rfl

/-- What follows the pool is read without looking behind the attributes of the class. -/
theorem definite_members (depth : Nat) (minorVersion majorVersion : UInt16) (pool : ConstantPool)
    (poolEnd : Nat) : (members depth minorVersion majorVersion pool poolEnd).Definite :=
  definite_u2.bind fun _ => definite_u2.bind fun _ => definite_u2.bind fun _ =>
    definite_u2.counted.bind fun _ => (definite_field pool depth).counted.bind fun _ =>
      (definite_method pool depth).counted.bind fun _ => (definite_attributes pool depth).bind
        fun _ => definite_pure _

end Reader

/-- The octets of the flags and the own names of a class. -/
def ClassFile.front (c : ClassFile) : Bytes :=
  Bytes.ofUInt16 c.access ++ Bytes.ofUInt16 c.thisClass ++ Bytes.ofUInt16 c.superClass

@[simp] theorem ClassFile.length_front (c : ClassFile) : c.front.length = 6 := rfl

namespace Reader

variable {pool : ConstantPool} {depth : Nat} {offset : Nat} {octets : Bytes}

/-- **The members of a class** and the octets of each kind. -/
theorem takes_members_iff {minorVersion majorVersion : UInt16} {poolEnd : Nat} {c : ClassFile} :
    (members depth minorVersion majorVersion pool poolEnd).Takes offset octets c
      ↔ ∃ interfaces fields methods each list,
          octets = c.front ++ (interfaces ++ (fields ++ (methods ++ each)))
          ∧ (counted u2).Takes (offset + 6) interfaces c.interfaces
          ∧ (counted (field pool depth)).Takes (offset + 6 + interfaces.length) fields list
          ∧ (counted (method pool depth)).Takes (offset + 6 + interfaces.length + fields.length)
              methods c.methods
          ∧ (attributes pool depth).Takes
              (offset + 6 + interfaces.length + fields.length + methods.length) each c.attributes
          ∧ c.minorVersion = minorVersion ∧ c.majorVersion = majorVersion ∧ c.pool = pool
          ∧ c.poolEnd = poolEnd := by
  constructor
  · intro h
    obtain ⟨access, _, rfl, h₁⟩ := takes_u2_bind_iff.1 h
    obtain ⟨thisClass, _, rfl, h₂⟩ := takes_u2_bind_iff.1 h₁
    obtain ⟨superClass, _, rfl, h₃⟩ := takes_u2_bind_iff.1 h₂
    obtain ⟨names, interfaces, _, rfl, hinterfaces, h₄⟩ := definite_u2.counted.takes_bind_iff.1 h₃
    obtain ⟨list, fields, _, rfl, hfields, h₅⟩ :=
      (definite_field pool depth).counted.takes_bind_iff.1 h₄
    obtain ⟨bodies, methods, _, rfl, hmethods, h₆⟩ :=
      (definite_method pool depth).counted.takes_bind_iff.1 h₅
    obtain ⟨own, each, _, rfl, heach, h₇⟩ := (definite_attributes pool depth).takes_bind_iff.1 h₆
    obtain ⟨rfl, rfl⟩ := takes_pure_iff.1 h₇
    exact ⟨interfaces, fields, methods, each, list, by simp [ClassFile.front], hinterfaces, hfields,
      hmethods, heach, rfl, rfl, rfl, rfl⟩
  · rintro ⟨interfaces, fields, methods, each, list, rfl, hinterfaces, hfields, hmethods, heach, rfl,
      rfl, rfl, rfl⟩
    have hoctets : c.front ++ (interfaces ++ (fields ++ (methods ++ each)))
        = Bytes.ofUInt16 c.access ++ (Bytes.ofUInt16 c.thisClass ++ (Bytes.ofUInt16 c.superClass
          ++ (interfaces ++ (fields ++ (methods ++ (each ++ [])))))) := by
      simp [ClassFile.front]
    rw [hoctets]
    exact (takes_u2 _ _).bind ((takes_u2 _ _).bind ((takes_u2 _ _).bind (hinterfaces.bind
      (hfields.bind (hmethods.bind (heach.bind (takes_pure c _)))))))

end Reader

/-! ### Class files -/

/-- The octets in front of the constant pool of a class file. -/
def ClassFile.head (c : ClassFile) : Bytes :=
  Bytes.ofUInt32 0xCAFEBABE ++ Bytes.ofUInt16 c.minorVersion ++ Bytes.ofUInt16 c.majorVersion

@[simp] theorem ClassFile.length_head (c : ClassFile) : c.head.length = 8 := rfl

/-- What a class is read from begins with its head and its constant pool. -/
theorem ClassFile.exists_constantPool_of_read {bytes : Bytes} {c : ClassFile}
    (h : ClassFile.read bytes = .ok c) :
    ∃ behind behindPool last, bytes = c.head ++ behind
      ∧ Reader.constantPool ⟨8, behind⟩ = .ok (c.pool, behindPool)
      ∧ Reader.members bytes.length c.minorVersion c.majorVersion c.pool c.poolEnd behindPool
        = .ok (c, last)
      ∧ c.poolEnd = behindPool.offset := by
  unfold ClassFile.read at h
  split at h
  · next _ last hread =>
    cases h
    rw [Reader.classFile_eq] at hread
    obtain ⟨magic, c₁, h₁, hread⟩ := bind_eq_ok_iff.1 hread
    obtain ⟨hrest₁, hoffset₁⟩ := Reader.u4_eq_ok h₁
    split at hread
    · cases hread
    next hmagic =>
    obtain ⟨minorVersion, c₂, h₂, hread⟩ := bind_eq_ok_iff.1 hread
    obtain ⟨hrest₂, hoffset₂⟩ := Reader.u2_eq_ok h₂
    obtain ⟨majorVersion, c₃, h₃, hread⟩ := bind_eq_ok_iff.1 hread
    obtain ⟨hrest₃, hoffset₃⟩ := Reader.u2_eq_ok h₃
    obtain ⟨pool, c₄, h₄, hread⟩ := bind_eq_ok_iff.1 hread
    obtain ⟨poolEnd, c₅, h₅, hread⟩ := bind_eq_ok_iff.1 hread
    cases h₅
    obtain ⟨_, -, -, htakes⟩ := Reader.definite_members _ _ _ _ _ _ _ _ hread
    obtain ⟨_, _, _, _, _, -, -, -, -, -, rfl, rfl, rfl, hpoolEnd⟩ :=
      Reader.takes_members_iff.1 htakes
    have hcursor : c₃ = ⟨8, c₃.rest⟩ := by
      rw [← show c₃.offset = 8 by rw [hoffset₃, hoffset₂, hoffset₁]]
    refine ⟨c₃.rest, c₄, last, ?_, hcursor ▸ h₄, hpoolEnd ▸ hread, hpoolEnd⟩
    refine (hrest₁ : bytes = _).trans ?_
    rw [hrest₂, hrest₃, ClassFile.head, not_not.1 hmagic]
    simp only [List.append_assoc]
  · cases h

/-- The pool of a class is what is read behind its head. -/
theorem ClassFile.pool_of_read {front octets rest : Bytes} {c : ClassFile} {pool : ConstantPool}
    (h : ClassFile.read (front ++ (octets ++ rest)) = .ok c) (hfront : front.length = 8)
    (hpool : Reader.constantPool.Takes 8 octets pool) : c.pool = pool := by
  obtain ⟨behind, behindPool, _, hbytes, hread, -, -⟩ := ClassFile.exists_constantPool_of_read h
  have hbehind : octets ++ rest = behind :=
    List.append_inj_right hbytes (hfront.trans c.length_head.symm)
  rw [← hbehind, hpool rest] at hread
  exact (Prod.mk.inj (Except.ok.inj hread)).1.symm

/-- **What a class was read from**: a head, a constant pool and members, with anything behind. -/
theorem ClassFile.of_read {bytes : Bytes} {c : ClassFile} (h : ClassFile.read bytes = .ok c) :
    ∃ count pool rest trailing, bytes = c.head ++ (Bytes.ofUInt16 count ++ pool ++ (rest ++ trailing))
      ∧ c.poolEnd = 10 + pool.length ∧ 0 < c.pool.slots.size
      ∧ (Reader.members bytes.length c.minorVersion c.majorVersion c.pool c.poolEnd).Takes c.poolEnd
          rest c
      ∧ ∀ constants : List Constant, (∀ k ∈ constants, k.IsLinked) →
        c.pool.slots.size + constants.length ≤ 65535 →
        Reader.constantPool.Takes 8
          (Bytes.ofUInt16 (UInt16.ofNat (c.pool.slots.size + constants.length)) ++ pool
            ++ constants.flatMap Constant.encode) (c.pool.extend constants) := by
  obtain ⟨behind, behindPool, last, hbytes, hpool, hmembers, hpoolEnd⟩ :=
    ClassFile.exists_constantPool_of_read h
  obtain ⟨count, octets, hrest, hoffset, hpos, hextend⟩ := Reader.constantPool_extend hpool
  obtain ⟨rest, hrest', -, htakes⟩ := Reader.definite_members _ _ _ _ _ _ _ _ hmembers
  rw [← hpoolEnd] at htakes hoffset
  dsimp only at hrest hoffset hextend
  refine ⟨count, octets, rest, last.rest, ?_, hoffset, hpos, htakes, hextend⟩
  rw [hbytes, hrest, hrest']

/-- **A class is read** from a head, a constant pool and members, with anything behind. -/
theorem ClassFile.read_of_parts {c : ClassFile} {pool rest trailing : Bytes}
    (hpool : Reader.constantPool.Takes 8 pool c.pool) (hpoolEnd : c.poolEnd = 8 + pool.length)
    (h : (Reader.members (c.head ++ (pool ++ (rest ++ trailing))).length c.minorVersion
      c.majorVersion c.pool c.poolEnd).Takes c.poolEnd rest c) :
    ClassFile.read (c.head ++ (pool ++ (rest ++ trailing))) = .ok c := by
  have htakes : (Reader.classFile (c.head ++ (pool ++ (rest ++ trailing))).length).Takes 0
      (Bytes.ofUInt32 0xCAFEBABE ++ (Bytes.ofUInt16 c.minorVersion ++ (Bytes.ofUInt16 c.majorVersion
        ++ (pool ++ ([] ++ rest))))) c := by
    rw [Reader.classFile_eq]
    refine (Reader.takes_u4 _ 0).bind ?_
    rw [if_neg (not_not.2 rfl)]
    refine (Reader.takes_u2 _ _).bind ((Reader.takes_u2 _ _).bind (hpool.bind
      ((Reader.takes_offset _).bind ?_)))
    rw [hpoolEnd] at h
    exact h
  have hread := htakes trailing
  have hbytes : Bytes.ofUInt32 0xCAFEBABE ++ (Bytes.ofUInt16 c.minorVersion
      ++ (Bytes.ofUInt16 c.majorVersion ++ (pool ++ ([] ++ rest)))) ++ trailing
        = c.head ++ (pool ++ (rest ++ trailing)) := by
    simp [ClassFile.head]
  rw [hbytes] at hread
  rw [ClassFile.read, hread]

end AdviceWeaver

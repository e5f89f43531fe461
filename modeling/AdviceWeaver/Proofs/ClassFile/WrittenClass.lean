import AdviceWeaver.Proofs.ClassFile.Members
import AdviceWeaver.Proofs.ClassFile.WrittenAttributes

/-!
# Written class files

Class files as they are to be written (`ClassForm`): constants of every kind, flags and names, fields,
methods and attributes. A class file that keeps the limits of the format (`ClassForm.Fits`) is read back
from its octets, whatever follows them.

## Main results

* `ClassForm.get_pool` — where the constants of a class are.
* `ClassForm.read_encode` — reading undoes writing.
-/

namespace AdviceWeaver

/-! ### Fields and methods -/

/-- A field or method as it is to be written. -/
structure MemberForm where
  access : UInt16
  name : UInt16
  descriptor : UInt16
  attributes : List AttributeForm

namespace MemberForm

/-- The form of a field or method. -/
def encode (m : MemberForm) : Bytes :=
  Bytes.ofUInt16 m.access ++ Bytes.ofUInt16 m.name ++ Bytes.ofUInt16 m.descriptor
    ++ encodeTable AttributeForm.encode m.attributes

/-- What is read of a method that is written at `offset`. -/
def placed (offset : Nat) (m : MemberForm) : MethodInfo :=
  ⟨m.access, m.name, m.descriptor,
    placeEach AttributeForm.encode AttributeForm.placed (offset + 8) m.attributes⟩

/-- Whether a field or method can be written. -/
structure Fits (pool : ConstantPool) (m : MemberForm) : Prop where
  count : m.attributes.length < 65536
  attributes : ∀ a ∈ m.attributes, a.Fits pool

end MemberForm

namespace Reader

variable {pool : ConstantPool} {depth : Nat} {m : MemberForm}

/-- A written method is read back. -/
theorem takes_memberForm (h : m.Fits pool) (hdepth : m.encode.length ≤ depth) (offset : Nat) :
    (method pool depth).Takes offset m.encode (m.placed offset) := by
  rw [MemberForm.encode, List.length_append] at hdepth
  exact takes_method_iff.2 ⟨_, rfl, takes_attributeForms h.count h.attributes (by omega) _⟩

/-- A written field is read over. -/
theorem takes_fieldForm (h : m.Fits pool) (hdepth : m.encode.length ≤ depth) (offset : Nat) :
    (field pool depth).Takes offset m.encode () := by
  rw [MemberForm.encode, List.length_append] at hdepth
  exact takes_field_iff.2
    ⟨_, _, _, rfl, rfl, takes_attributeForms h.count h.attributes (by omega) _⟩

end Reader

/-! ### Classes -/

/-- A class file as it is to be written. -/
structure ClassForm where
  minorVersion : UInt16
  majorVersion : UInt16
  constants : List Constant
  access : UInt16
  thisClass : UInt16
  superClass : UInt16
  interfaces : List UInt16
  fields : List MemberForm
  methods : List MemberForm
  attributes : List AttributeForm

namespace ClassForm

/-- The slots of the constants. Nothing is at index 0, and at the second slot of a wide constant. -/
def pool (f : ClassForm) : ConstantPool :=
  ⟨(none :: f.constants.flatMap Constant.slots).toArray⟩

/-- The octets in front of the constant pool. -/
def head (f : ClassForm) : Bytes :=
  Bytes.ofUInt32 0xCAFEBABE ++ Bytes.ofUInt16 f.minorVersion ++ Bytes.ofUInt16 f.majorVersion

/-- The octets of the constant pool. -/
def poolOctets (f : ClassForm) : Bytes :=
  Bytes.ofUInt16 (UInt16.ofNat f.pool.slots.size) ++ f.constants.flatMap Constant.encode

/-- The octets of the flags and the own names. -/
def front (f : ClassForm) : Bytes :=
  Bytes.ofUInt16 f.access ++ Bytes.ofUInt16 f.thisClass ++ Bytes.ofUInt16 f.superClass

/-- The octets behind the constant pool. -/
def members (f : ClassForm) : Bytes :=
  f.front ++ (encodeTable Bytes.ofUInt16 f.interfaces ++ (encodeTable MemberForm.encode f.fields
    ++ (encodeTable MemberForm.encode f.methods ++ encodeTable AttributeForm.encode f.attributes)))

/-- The form of a class file. -/
def encode (f : ClassForm) : Bytes :=
  f.head ++ f.poolOctets ++ f.members

/-- The offset just behind the last constant. -/
def poolEnd (f : ClassForm) : Nat :=
  f.head.length + f.poolOctets.length

/-- The offset of the fields. -/
def fieldsAt (f : ClassForm) : Nat :=
  f.poolEnd + f.front.length + (encodeTable Bytes.ofUInt16 f.interfaces).length

/-- The offset of the methods. -/
def methodsAt (f : ClassForm) : Nat :=
  f.fieldsAt + (encodeTable MemberForm.encode f.fields).length

/-- The offset of the attributes. -/
def attributesAt (f : ClassForm) : Nat :=
  f.methodsAt + (encodeTable MemberForm.encode f.methods).length

/-- What is read of a class file. -/
def placed (f : ClassForm) : ClassFile where
  minorVersion := f.minorVersion
  majorVersion := f.majorVersion
  pool := f.pool
  poolEnd := f.poolEnd
  access := f.access
  thisClass := f.thisClass
  superClass := f.superClass
  interfaces := f.interfaces
  methods := placeEach MemberForm.encode MemberForm.placed (f.methodsAt + 2) f.methods
  attributes := placeEach AttributeForm.encode AttributeForm.placed (f.attributesAt + 2) f.attributes

/-- **The limits of the format:** texts, lists and the slots of the constant pool are told by 16 bits,
and so is everything in the attributes. -/
structure Fits (f : ClassForm) : Prop where
  constants : ∀ k ∈ f.constants, k.Fits
  slots : f.pool.slots.size ≤ 65535
  interfaceCount : f.interfaces.length < 65536
  fieldCount : f.fields.length < 65536
  fields : ∀ m ∈ f.fields, m.Fits f.pool
  methodCount : f.methods.length < 65536
  methods : ∀ m ∈ f.methods, m.Fits f.pool
  attributeCount : f.attributes.length < 65536
  attributes : ∀ a ∈ f.attributes, a.Fits f.pool

/-! ### Reading it back -/

variable {f : ClassForm}

/-- The constants of a class are read back. -/
theorem takes_poolOctets (hconstants : ∀ k ∈ f.constants, k.Fits) (hslots : f.pool.slots.size ≤ 65535)
    (offset : Nat) :
    Reader.constantPool.Takes offset f.poolOctets f.pool := by
  have hsize : f.pool.slots.size = (f.constants.flatMap Constant.slots).length + 1 := by
    simp [pool]
  refine (Reader.takes_u2 _ offset).bind ?_
  rw [UInt16.toNat_ofNat_of_lt' (Nat.lt_succ_of_le hslots), hsize, Nat.add_sub_cancel]
  intro rest
  have hread := Reader.slotsOnto_encode hconstants 0 #[none] (offset + 2) rest
  rw [Nat.add_zero, Reader.slotsOnto] at hread
  refine bind_eq_ok_iff.2 ⟨_, _, hread, pure_eq_ok_iff.2 ⟨?_, rfl⟩⟩
  simp [pool]

/-- What stands behind the constant pool is read back. -/
theorem takes_members (h : f.Fits) {depth : Nat} (hdepth : f.encode.length ≤ depth) :
    (Reader.members depth f.minorVersion f.majorVersion f.pool f.poolEnd).Takes f.poolEnd f.members
      f.placed := by
  simp only [encode, members, List.length_append] at hdepth
  have hinterfaces (offset : Nat) : (Reader.counted Reader.u2).Takes offset
      (encodeTable Bytes.ofUInt16 f.interfaces) f.interfaces :=
    Reader.takes_encodeTable h.interfaceCount (fun n _ => Reader.takes_u2 n) offset
  have hfields (offset : Nat) : (Reader.counted (Reader.field f.pool depth)).Takes offset
      (encodeTable MemberForm.encode f.fields)
      (placeEach MemberForm.encode (fun _ _ => ()) (offset + 2) f.fields) := by
    refine Reader.takes_place (Reader.definite_field f.pool depth) h.fieldCount (fun m hm => ?_) offset
    have hlt : m.encode.length < _ := length_lt_encodeTable hm
    exact Reader.takes_fieldForm (h.fields m hm) (by omega)
  have hmethods (offset : Nat) : (Reader.counted (Reader.method f.pool depth)).Takes offset
      (encodeTable MemberForm.encode f.methods)
      (placeEach MemberForm.encode MemberForm.placed (offset + 2) f.methods) := by
    refine Reader.takes_place (Reader.definite_method f.pool depth) h.methodCount (fun m hm => ?_)
      offset
    have hlt : m.encode.length < _ := length_lt_encodeTable hm
    exact Reader.takes_memberForm (h.methods m hm) (by omega)
  have hattributes (offset : Nat) : (Reader.attributes f.pool depth).Takes offset
      (encodeTable AttributeForm.encode f.attributes)
      (placeEach AttributeForm.encode AttributeForm.placed (offset + 2) f.attributes) :=
    Reader.takes_attributeForms h.attributeCount h.attributes (by omega) offset
  exact Reader.takes_members_iff.2 ⟨_, _, _, _, _, rfl, hinterfaces _, hfields _, hmethods _,
    hattributes _, rfl, rfl, rfl, rfl⟩

/-- A class file is read back, whatever follows it. -/
theorem read_append (h : f.Fits) (trailing : Bytes) :
    ClassFile.read (f.encode ++ trailing) = .ok f.placed := by
  have hbytes : f.encode ++ trailing = f.placed.head ++ (f.poolOctets ++ (f.members ++ trailing)) := by
    simp only [encode, List.append_assoc]
    rfl
  rw [hbytes]
  refine ClassFile.read_of_parts (takes_poolOctets h.constants h.slots 8) rfl (takes_members h ?_)
  rw [← hbytes, List.length_append]
  exact Nat.le_add_right ..

/-! ### Where things are -/

/-- **Where a constant is:** its index is one more than the number of slots that are used before it. The
second slot of a wide constant holds nothing. -/
theorem get_pool (h : f.Fits) {before after : List Constant} {k : Constant}
    (hsplit : f.constants = before ++ k :: after) :
    f.pool.get (UInt16.ofNat (1 + (before.flatMap Constant.slots).length)) = .ok k
      ∧ (k.isWide = true →
        f.pool.slots[2 + (before.flatMap Constant.slots).length]? = some none) := by
  have hslots : f.pool.slots.toList
      = (none :: before.flatMap Constant.slots) ++ (k.slots ++ after.flatMap Constant.slots) := by
    simp [pool, hsplit]
  have hslot (position : Nat) (hposition : position < k.slots.length) :
      f.pool.slots[1 + (before.flatMap Constant.slots).length + position]? = k.slots[position]? := by
    rw [← Array.getElem?_toList, hslots, List.getElem?_append_right (by simp; omega),
      List.getElem?_append_left (by simp; omega)]
    congr 1
    simp only [List.length_cons]
    omega
  have hpos : 0 < k.slots.length := by
    rw [Constant.slots]
    split <;> exact Nat.zero_lt_succ _
  have hsize : 1 + (before.flatMap Constant.slots).length < f.pool.slots.size := by
    rw [← Array.length_toList, hslots]
    simp only [List.length_append, List.length_cons]
    omega
  constructor
  · have hindex : (UInt16.ofNat (1 + (before.flatMap Constant.slots).length)).toNat
        = 1 + (before.flatMap Constant.slots).length :=
      UInt16.toNat_ofNat_of_lt' (Nat.lt_of_lt_of_le hsize (Nat.le_succ_of_le h.slots))
    refine ConstantPool.get_eq_ok_iff.2 ⟨fun hzero => ?_, ?_⟩
    · rw [hzero, UInt16.toNat_zero] at hindex
      omega
    · have hfirst : k.slots[0]? = some (some k) := by
        rw [Constant.slots]
        split <;> rfl
      rw [hindex, ← hfirst]
      exact hslot 0 hpos
  · intro hwide
    have htwo : k.slots = [some k, none] := if_pos hwide
    have hindex : 2 + (before.flatMap Constant.slots).length
        = 1 + (before.flatMap Constant.slots).length + 1 := by omega
    rw [hindex, hslot 1 (by rw [htwo]; exact Nat.one_lt_two), htwo]
    rfl

/-- The parts of a class file are where they were written. -/
theorem hasAt_encode (f : ClassForm) (trailing : Bytes) :
    (f.encode ++ trailing).HasAt 0 (f.head ++ f.poolOctets)
      ∧ (f.encode ++ trailing).HasAt (f.methodsAt + 2) (f.methods.flatMap MemberForm.encode)
      ∧ (f.encode ++ trailing).HasAt (f.attributesAt + 2)
          (f.attributes.flatMap AttributeForm.encode) := by
  have hall : (f.encode ++ trailing).HasAt 0 (f.head ++ f.poolOctets ++ f.members) :=
    ⟨[], trailing, rfl, rfl⟩
  have hpoolEnd : 0 + (f.head ++ f.poolOctets).length = f.poolEnd := by
    rw [Nat.zero_add, List.length_append, poolEnd]
  have hmembers := hall.right
  rw [hpoolEnd] at hmembers
  have hlast := hmembers.right.right.right
  exact ⟨hall.left, hlast.left.right, hlast.right.right⟩

/-- **Reading undoes writing.** A class file that keeps the limits of the format is read back from its
octets, whatever follows them: the constants are at their indexes, the constant pool ends where it was
written to, and the spans of all attributes of methods and of the class cut out what was written. -/
theorem read_encode (h : f.Fits) (trailing : Bytes) :
    ClassFile.read (f.encode ++ trailing) = .ok f.placed
      ∧ f.placed.pool.slots[0]? = some none
      ∧ (∀ before k after, f.constants = before ++ k :: after →
          f.placed.pool.get (UInt16.ofNat (1 + (before.flatMap Constant.slots).length)) = .ok k
            ∧ (k.isWide = true →
              f.placed.pool.slots[2 + (before.flatMap Constant.slots).length]? = some none))
      ∧ (f.encode ++ trailing).slice? 0 f.placed.poolEnd = some (f.head ++ f.poolOctets)
      ∧ List.Forall₂ (fun (m : MemberForm) (m' : MethodInfo) =>
          List.Forall₂ (AttributeForm.Spans (f.encode ++ trailing)) m.attributes m'.attributes)
          f.methods f.placed.methods
      ∧ List.Forall₂ (AttributeForm.Spans (f.encode ++ trailing)) f.attributes f.placed.attributes := by
  obtain ⟨hpool, hmethods, hattributes⟩ := hasAt_encode f trailing
  refine ⟨read_append h trailing, rfl, fun before k after hsplit => get_pool h hsplit, ?_, ?_, ?_⟩
  · have hcut := hpool.slice?_eq
    rwa [Nat.zero_add, List.length_append] at hcut
  · refine forall₂_placeEach (fun m hm offset hat => ?_) hmethods
    exact forall₂_placeEach (fun a ha _ => AttributeForm.Spans.of_hasAt ((h.methods m hm).attributes a ha))
      hat.right.right
  · exact forall₂_placeEach (fun a ha _ => AttributeForm.Spans.of_hasAt (h.attributes a ha)) hattributes

/-- A class `A` with a long constant, a method with a frame, an annotation that is nested in an array, and
an attribute that is not looked into. -/
def sample : ClassForm where
  minorVersion := 0
  majorVersion := 52
  constants := [.utf8 "A", .classInfo 1, .long 7, .utf8 "m", .utf8 "()V", .utf8 "Code",
    .utf8 "StackMapTable", .utf8 "RuntimeVisibleAnnotations", .utf8 "LX;", .utf8 "NestHost"]
  access := 0x21
  thisClass := 2
  superClass := 0
  interfaces := [2]
  fields := [⟨1, 5, 10, [⟨11, .other "NestHost", []⟩]⟩]
  methods := [⟨9, 5, 6, [⟨7, .code ⟨1, 0, [0x57, 0xB1], [⟨0, 1, 1, 0⟩],
    [⟨8, .stackMapTable [.oneItem 1 (.object 2)], []⟩]⟩, []⟩]⟩]
  attributes := [⟨9, .visibleAnnotations [⟨10, [(5, .array [.nested 10 [(5, .const 0x73 1)]])]⟩], []⟩,
    ⟨11, .other "NestHost", [0, 2]⟩]

/-- The constants of the sample can be written. -/
theorem fits_constants_sample : ∀ k ∈ sample.constants, k.Fits := by
  have htext (text : String) (h : text.utf8ByteSize ≤ 65535) : (Constant.utf8 text).Fits := h
  intro k hk
  simp only [sample, List.mem_cons, List.not_mem_nil, or_false] at hk
  rcases hk with rfl | rfl | rfl | rfl | rfl | rfl | rfl | rfl | rfl | rfl
  any_goals exact htext _ (by decide)
  all_goals exact trivial

/-- The attribute of the sample that is not known can be written, whatever its octets. -/
theorem fits_host_sample {unread : Bytes} (h : unread.length < 4294967296) :
    AttributeForm.Fits sample.pool ⟨11, .other "NestHost", unread⟩ := by
  have hother : "NestHost" ∉ knownTitles := by
    decide
  exact .flat rfl h hother

/-- The sample keeps within all limits of the format. -/
theorem fits_sample : sample.Fits where
  constants := fits_constants_sample
  slots := by decide
  interfaceCount := by decide
  fieldCount := by decide
  fields := List.forall_mem_singleton.2
    ⟨by decide, List.forall_mem_singleton.2 (fits_host_sample (by decide))⟩
  methodCount := by decide
  methods := by
    have hframe : (StackFrame.oneItem 1 (.object 2)).Writable := by
      show (1 : UInt16) ≤ 63
      decide
    refine List.forall_mem_singleton.2 ⟨by decide, List.forall_mem_singleton.2 ?_⟩
    refine .code rfl (by decide) (by decide) (by decide) (by decide) (by decide) ?_
    exact List.forall_mem_singleton.2
      (.flat rfl (by decide) ⟨by decide, List.forall_mem_singleton.2 hframe⟩)
  attributeCount := by decide
  attributes := by
    have hvalue : ElementValue.Fits (.array [.nested 10 [(5, .const 0x73 1)]]) :=
      .array (by decide) (List.forall_mem_singleton.2
        (.nested (by decide) (List.forall_mem_singleton.2 (.const (by decide)))))
    refine List.forall_mem_cons.2 ⟨.flat rfl (by decide) ⟨by decide, ?_⟩,
      List.forall_mem_singleton.2 (fits_host_sample (by decide))⟩
    exact List.forall_mem_singleton.2 ⟨by decide, List.forall_mem_singleton.2 hvalue⟩

/-- The class is read back, with an octet behind it. -/
theorem read_encode_sample :
    sample.Fits ∧ ClassFile.read (sample.encode ++ [0xFF]) = .ok sample.placed :=
  ⟨fits_sample, (read_encode fits_sample [0xFF]).1⟩

end ClassForm

end AdviceWeaver

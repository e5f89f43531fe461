import AdviceWeaver.Proofs.ClassFile.WrittenClass
import AdviceWeaver.Proofs.Weaving.FreshConstants
import AdviceWeaver.Proofs.Weaving.RepeatedWeaving

/-!
# Bodies that become too long

The length of a code attribute is told with 32 bits, and weaving writes the low 32 bits of it. Hooks add
a few octets to an attribute that may have almost `2 ^ 32` before, because a body may hold attributes of
any kind and of any length. Such an attribute is then said to be empty, and no class is read any more.

The class is an idle one whose body is stuffed with zeros that are not looked into (`ClassForm.stuffed`).
It is never computed: what is known of it follows from how class files are written and read.

## Main results

* `ClassForm.weave_stuffed` — weaving a stuffed class gives a stuffed class.
* `ClassFile.weave_overlong` — weaving does not always give a class.
* `ClassFile.weave_nests_except` — weaving twice is not always weaving once.
-/

namespace AdviceWeaver

namespace ClassForm

/-! ### Stuffed classes -/

/-- An attribute `A` of `n` octets that are not looked into. -/
def stuffing (n : Nat) : AttributeForm :=
  ⟨1, .other "A", List.replicate n 0⟩

/-- The code attribute of a body with this attribute. -/
def stuffedCode (code : Bytes) (n : Nat) : AttributeForm :=
  ⟨5, .code ⟨0, 0, code, [], [stuffing n]⟩, []⟩

/-- A class `A` with one static method `m` that has such a body, and with more constants than it
needs. -/
def stuffed (more : List Constant) (code : Bytes) (n : Nat) : ClassForm where
  minorVersion := 0
  majorVersion := 52
  constants := [.utf8 "A", .classInfo 1, .utf8 "m", .utf8 "()V", .utf8 "Code"] ++ more
  access := 0x21
  thisClass := 2
  superClass := 0
  interfaces := []
  fields := []
  methods := [⟨9, 3, 4, [stuffedCode code n]⟩]
  attributes := []

variable {more : List Constant} {code code' : Bytes} {n : Nat}

/-- The content of the code attribute is as long as its body and its padding. -/
theorem length_content_stuffedCode :
    (AttributeForm.encodeContent (stuffedCode code n).content).length = 18 + code.length + n := by
  rw [stuffedCode, AttributeForm.encodeContent_code]
  simp only [encodeTable, List.length_append, Bytes.length_ofUInt16, CodeOf.length_front,
    List.flatMap_cons, List.flatMap_nil, List.length_nil, AttributeForm.length_encode, stuffing,
    AttributeForm.encodeContent, List.length_replicate]
  omega

/-- The pool has the slots of six constants and of those behind. -/
theorem slots_stuffed (hmore : ∀ k ∈ more, k.IsLinked) :
    (stuffed more code n).pool.slots.size = 6 + more.length := by
  show ([none, some (Constant.utf8 "A"), some (.classInfo 1), some (.utf8 "m"), some (.utf8 "()V"),
    some (.utf8 "Code")] ++ more.flatMap Constant.slots).length = _
  rw [Constant.slots_linked hmore, List.length_append, List.length_map]
  rfl

/-- All constants of the pool can be written. -/
theorem fits_constants_stuffed (hmore : ∀ k ∈ more, k.IsLinked) :
    ∀ k ∈ (stuffed more code n).constants, k.Fits := by
  have htext (text : String) (h : text.utf8ByteSize ≤ 65535) : (Constant.utf8 text).Fits := h
  intro k hk
  obtain hk | hk := List.mem_append.1 hk
  · simp only [List.mem_cons, List.not_mem_nil, or_false] at hk
    rcases hk with rfl | rfl | rfl | rfl | rfl
    · exact htext _ (by decide)
    · exact trivial
    · exact htext _ (by decide)
    · exact htext _ (by decide)
    · exact htext _ (by decide)
  · exact (hmore k hk).fits

/-- The code attribute of a stuffed class can be written, if 32 bits can tell its length. -/
theorem fits_stuffedCode (hne : code ≠ []) (hle : code.length ≤ 65535)
    (hn : 18 + code.length + n < 4294967296) :
    (stuffedCode code n).Fits (stuffed more code' n).pool := by
  have hfew : 1 < 65536 := by decide
  have hstuffing : (stuffing n).Fits (stuffed more code' n).pool := by
    have hother : "A" ∉ knownTitles := by decide
    refine .flat rfl ?_ hother
    rw [AttributeForm.encodeContent, List.nil_append, List.length_replicate]
    omega
  refine .code rfl ?_ hne hle (Nat.lt_of_succ_lt hfew) hfew (List.forall_mem_singleton.2 hstuffing)
  rw [List.append_nil]
  exact length_content_stuffedCode.trans_lt hn

/-- A stuffed class keeps the limits of the format, if 32 bits can tell the length of its code
attribute. -/
theorem fits_stuffed (hmore : ∀ k ∈ more, k.IsLinked) (hsize : more.length ≤ 65529) (hne : code ≠ [])
    (hle : code.length ≤ 65535) (hn : 18 + code.length + n < 4294967296) :
    (stuffed more code n).Fits := by
  have hfew : 1 < 65536 := by decide
  refine ⟨fits_constants_stuffed hmore, ?_, Nat.lt_of_succ_lt hfew, Nat.lt_of_succ_lt hfew, nofun, hfew,
    List.forall_mem_singleton.2 ⟨hfew, List.forall_mem_singleton.2 (fits_stuffedCode hne hle hn)⟩,
    Nat.lt_of_succ_lt hfew, nofun⟩
  rw [slots_stuffed hmore]
  omega

/-- The octets of the class between its constants and the code attribute. -/
def stuffedFront : Bytes :=
  Bytes.ofUInt16 0x21 ++ (Bytes.ofUInt16 2 ++ (Bytes.ofUInt16 0 ++ (Bytes.ofUInt16 0
    ++ (Bytes.ofUInt16 0 ++ (Bytes.ofUInt16 1 ++ (Bytes.ofUInt16 9 ++ (Bytes.ofUInt16 3
      ++ (Bytes.ofUInt16 4 ++ Bytes.ofUInt16 1))))))))

/-- The members are one method, whose only attribute is the code. -/
theorem members_stuffed :
    (stuffed more code n).members = stuffedFront ++ ((stuffedCode code n).encode ++ [0, 0]) := by
  simp only [members, front, stuffed, encodeTable, MemberForm.encode, List.flatMap_cons,
    List.flatMap_nil, List.append_nil, List.length_cons, List.length_nil, List.append_assoc]
  rfl

/-! ### Attributes that are said to be empty -/

/-- The code attribute is written with the length of its content, as far as 32 bits tell it. -/
theorem encode_stuffedCode (code : Bytes) (n : Nat) : (stuffedCode code n).encode
    = encodeAttribute 5 (AttributeForm.encodeContent (stuffedCode code n).content) := by
  rw [stuffedCode, AttributeForm.encode, List.append_nil]

/-- A code attribute whose length is a multiple of `2 ^ 32` is said to be empty. -/
theorem encode_stuffedCode_of_overlong (hn : (18 + code.length + n) % 4294967296 = 0) :
    ∃ inside, (stuffedCode code n).encode = Bytes.ofUInt16 5 ++ (Bytes.ofUInt32 0 ++ inside) := by
  have hzero : UInt32.ofNat (18 + code.length + n) = 0 := by
    rw [← UInt32.toNat_inj, UInt32.toNat_ofNat', hn, UInt32.toNat_zero]
  refine ⟨AttributeForm.encodeContent (stuffedCode code n).content, ?_⟩
  rw [encode_stuffedCode, encodeAttribute, length_content_stuffedCode, hzero, List.append_assoc]

end ClassForm

namespace Reader

variable {α β : Type} {R : Reader α} {f : α → Reader β} {offset : Nat} {octets rest : Bytes} {a : α}
  {e : FormatError}

/-- A sequence fails where its second reader does. -/
theorem Takes.bind_error (h : R.Takes offset octets a)
    (hf : f a ⟨offset + octets.length, rest⟩ = .error e) :
    (R >>= f) ⟨offset, octets ++ rest⟩ = .error e := by
  show (R ⟨offset, octets ++ rest⟩ >>= fun p => f p.1 p.2) = _
  rw [h rest]
  exact hf

/-- A sequence fails where its first reader does. -/
theorem bind_error {c : Cursor} (h : R c = .error e) : (R >>= f) c = .error e := by
  show (R c >>= fun p => f p.1 p.2) = _
  rw [h]
  rfl

/-- Content that was set apart fails where its reader does. -/
theorem within_error {start : Nat} {inside : Bytes} {c : Cursor} (h : R ⟨start, inside⟩ = .error e) :
    within start inside R c = .error e := by
  rw [within, h]

/-- A table of one item fails where the item does. -/
theorem counted_one_error (h : R ⟨offset + 2, rest⟩ = .error e) :
    counted R ⟨offset, Bytes.ofUInt16 1 ++ rest⟩ = .error e := by
  refine (takes_u2 1 offset).bind_error ?_
  show times (0 + 1) R ⟨offset + 2, rest⟩ = .error e
  rw [times_succ]
  exact bind_error h

/-- A code attribute that is said to be empty is not read. -/
theorem attributeEntry_of_empty {pool : ConstantPool} {nested : Reader (List Attribute)}
    (htext : pool.getText 5 = .ok "Code") :
    attributeEntry pool nested ⟨offset, Bytes.ofUInt16 5 ++ (Bytes.ofUInt32 0 ++ rest)⟩
      = .error .unexpectedEnd := by
  have hcontent : content nested "Code" ⟨offset + 2 + 4, []⟩ = .error .unexpectedEnd := by
    rw [content_code]
    rfl
  rw [attributeEntry_eq]
  refine (takes_offset offset).bind_error ((takes_u2 5 _).bind_error ((takes_u4 0 _).bind_error ?_))
  refine (takes_lift_iff.2 ⟨rfl, htext⟩).bind_error ((takes_offset _).bind_error ?_)
  exact (takes_bytes [] _).bind_error (bind_error (within_error hcontent))

/-- A class is not read if its only method has such an attribute. -/
theorem members_of_empty {pool : ConstantPool} (htext : pool.getText 5 = .ok "Code") (depth : Nat)
    (minorVersion majorVersion : UInt16) (poolEnd : Nat) :
    members (depth + 1) minorVersion majorVersion pool poolEnd
      ⟨offset, ClassForm.stuffedFront ++ (Bytes.ofUInt16 5 ++ (Bytes.ofUInt32 0 ++ rest))⟩
      = .error .unexpectedEnd := by
  refine (takes_u2 0x21 _).bind_error ((takes_u2 2 _).bind_error ((takes_u2 0 _).bind_error ?_))
  refine (takes_counted_nil _).bind_error ((takes_counted_nil _).bind_error ?_)
  refine bind_error (counted_one_error ?_)
  rw [method_eq]
  refine (takes_u2 9 _).bind_error ((takes_u2 3 _).bind_error ((takes_u2 4 _).bind_error ?_))
  exact bind_error (counted_one_error (attributeEntry_of_empty htext))

end Reader

namespace ClassForm

variable {more : List Constant} {code code' : Bytes} {n : Nat}

/-- **A class whose code attribute is said to be empty** is not read. -/
theorem not_read_stuffed (hmore : ∀ k ∈ more, k.IsLinked) (hsize : more.length ≤ 65529)
    (hn : (18 + code.length + n) % 4294967296 = 0) (c : ClassFile) :
    ClassFile.read (stuffed more code n).encode ≠ .ok c := by
  intro hread
  have hslots : (stuffed more code n).pool.slots.size ≤ 65535 := by
    rw [slots_stuffed hmore]
    omega
  obtain ⟨behind, behindPool, last, hbytes, hpool, hmembers, -⟩ :=
    ClassFile.exists_constantPool_of_read hread
  rw [encode, List.append_assoc] at hbytes
  obtain rfl : (stuffed more code n).poolOctets ++ (stuffed more code n).members = behind :=
    List.append_inj_right hbytes rfl
  rw [takes_poolOctets (fits_constants_stuffed hmore) hslots] at hpool
  obtain ⟨heq, rfl⟩ := Prod.mk.inj (Except.ok.inj hpool)
  obtain ⟨inside, hinside⟩ := encode_stuffedCode_of_overlong hn
  obtain ⟨depth, hdepth⟩ : ∃ depth, (stuffed more code n).encode.length = depth + 1 := ⟨_, rfl⟩
  rw [← heq, hdepth, members_stuffed, hinside, List.append_assoc, List.append_assoc,
    Reader.members_of_empty rfl] at hmembers
  cases hmembers

/-! ### Weaving stuffed classes -/

variable {instructions woven : List Instruction} {refs : HookRefs}

/-- The attribute stands behind the octets in front of it. -/
theorem hasAt_stuffedCode :
    (stuffed more code n).encode.HasAt ((stuffed more code n).poolEnd + 20) (stuffedCode code n).encode := by
  refine ⟨(stuffed more code n).head ++ (stuffed more code n).poolOctets ++ stuffedFront, [0, 0], ?_, ?_⟩
  · rw [encode, members_stuffed]
    simp only [List.append_assoc]
  · rw [List.length_append, List.length_append, poolEnd]
    rfl

/-- **Hooks are put in front** of what the body is stuffed with. -/
theorem insertHooks_stuffed {bytes : Bytes} {offset : Nat}
    (hslice : bytes.slice? ((stuffing n).placed offset).span.start
      ((stuffing n).placed offset).span.stop = some (stuffing n).encode)
    (hdecode : Body.decode code = .ok instructions)
    (hlength : (Layout.of instructions refs).newLength ≤ 65535)
    (hwoven : (Layout.of instructions refs).body refs = .ok woven) :
    (⟨0, 0, code, [], [(stuffing n).placed offset]⟩ : Code).insertHooks bytes refs
      = .ok (AttributeForm.encodeContent (stuffedCode (Body.encode woven) n).content) := by
  obtain ⟨mended, hmended, rfl⟩ := Layout.body_eq_ok_iff.1 hwoven
  have hattribute : (Layout.of instructions refs).mapAttribute bytes ((stuffing n).placed offset)
      = .ok (stuffing n).encode := by
    have hnone : (Layout.of instructions refs).mapContent ((stuffing n).placed offset).content
        = .ok none := by
      rw [stuffing, AttributeForm.placed, AttributeForm.placedContent]
      rfl
    refine except_bind_eq_ok.2 ⟨none, hnone, ?_⟩
    rw [hslice]
    rfl
  have hkept : [(stuffing n).placed offset].filter Attribute.isKept = [(stuffing n).placed offset] := by
    rw [stuffing, AttributeForm.placed, AttributeForm.placedContent]
    rfl
  refine CodeOf.insertHooks_eq_ok_iff.2 ⟨instructions, mended, [], [(stuffing n).encode], hdecode,
    hlength, hmended, .nil, ?_, ?_⟩
  · rw [hkept]
    exact .cons hattribute .nil
  · rw [stuffedCode, AttributeForm.encodeContent_code]
    rfl

/-- What is read of the code attribute of a stuffed class. -/
theorem exists_placed_stuffedCode (code : Bytes) (n at_ : Nat) : ∃ offset, (stuffedCode code n).placed at_
    = ⟨5, ⟨at_, at_ + (stuffedCode code n).encode.length⟩,
      .code ⟨0, 0, code, [], [(stuffing n).placed offset]⟩⟩ := by
  refine ⟨at_ + 6 + (CodeOf.front ⟨0, 0, code, [], [stuffing n]⟩).length + 2, ?_⟩
  rw [stuffedCode, AttributeForm.placed, AttributeForm.placedContent_code]
  rfl

/-- The only method stands twenty octets behind the pool, with its code. -/
theorem methods_stuffed : (stuffed more code n).placed.methods
    = [⟨9, 3, 4, [(stuffedCode code n).placed ((stuffed more code n).poolEnd + 20)]⟩] :=
  rfl

/-- What the body of a stuffed class is stuffed with can be cut out where it was read. -/
theorem slice_stuffing {offset : Nat} (hne : code ≠ []) (hle : code.length ≤ 65535)
    (hn : 18 + code.length + n < 4294967296)
    (hplaced : (stuffedCode code n).placed ((stuffed more code n).poolEnd + 20)
      = ⟨5, ⟨(stuffed more code n).poolEnd + 20,
          (stuffed more code n).poolEnd + 20 + (stuffedCode code n).encode.length⟩,
        .code ⟨0, 0, code, [], [(stuffing n).placed offset]⟩⟩) :
    (stuffed more code n).encode.slice? ((stuffing n).placed offset).span.start
      ((stuffing n).placed offset).span.stop = some (stuffing n).encode := by
  have hfits : (stuffedCode code n).Fits (stuffed more code n).pool := fits_stuffedCode hne hle hn
  have hspans : AttributeForm.Spans (stuffed more code n).encode (stuffedCode code n) _ :=
    .of_hasAt hfits hasAt_stuffedCode
  rw [hplaced] at hspans
  cases hspans with
  | flat hflat _ => exact absurd rfl (hflat _)
  | code ha hb hspan hnested =>
    cases ha
    cases hb
    obtain ⟨hstuffing, -⟩ := List.forall₂_cons.1 hnested
    cases hstuffing with
    | code ha _ _ _ => cases ha
    | flat _ hslice => exact hslice

/-- The splice that gives the method of a stuffed class another body. -/
def stuffedSplice (more : List Constant) (code code' : Bytes) (n : Nat) : Splice where
  span := ⟨(stuffed more code n).poolEnd + 20,
    (stuffed more code n).poolEnd + 20 + (stuffedCode code n).encode.length⟩
  octets := (stuffedCode code' n).encode

/-- What the splice makes of the octets behind the constants. -/
theorem applySplices_stuffed : applySplices (stuffed more code n).poolEnd
    (stuffedFront ++ (stuffedCode code n).encode ++ [0, 0]) [stuffedSplice more code code' n]
      = stuffedFront ++ (stuffedCode code' n).encode ++ [0, 0] :=
  (Spliced.replaced (s := stuffedSplice more code code' n) rfl (.copied _ _)).eq_applySplices

/-- The three parts of a stuffed class that weaving copies: what stands in front of the number of slots,
the constants, and what stands behind them. -/
theorem parts_stuffed : (stuffed more code n).encode.slice 0 8 = (stuffed more code n).head
    ∧ (stuffed more code n).encode.slice 10 (stuffed more code n).poolEnd
      = (stuffed more code n).constants.flatMap Constant.encode
    ∧ (stuffed more code n).encode.drop (stuffed more code n).poolEnd
      = stuffedFront ++ (stuffedCode code n).encode ++ [0, 0] := by
  have hbytes : (stuffed more code n).encode = (stuffed more code n).head
      ++ ((stuffed more code n).poolOctets ++ (stuffed more code n).members) := by
    rw [encode, List.append_assoc]
  have hend : (stuffed more code n).poolEnd
      = 10 + ((stuffed more code n).constants.flatMap Constant.encode).length := by
    rw [poolEnd, poolOctets, List.length_append, Bytes.length_ofUInt16, ← Nat.add_assoc]
    rfl
  have hfront : (stuffed more code n).poolEnd
      = ((stuffed more code n).head ++ (stuffed more code n).poolOctets).length :=
    List.length_append.symm
  refine ⟨Bytes.HasAt.slice_eq ⟨[], _, hbytes, rfl⟩, ?_, ?_⟩
  · rw [hend]
    exact Bytes.HasAt.slice_eq ⟨(stuffed more code n).head
      ++ Bytes.ofUInt16 (UInt16.ofNat (stuffed more code n).pool.slots.size),
      (stuffed more code n).members, by simp only [hbytes, poolOctets, List.append_assoc], rfl⟩
  · rw [encode, hfront, List.drop_left, members_stuffed, List.append_assoc]

/-- What hooks make of a body: the constants that they need behind `count` slots, and the new body. -/
def hooking? (hooks : List Hook) (count : UInt16) (code : Bytes) : Option (List Constant × Bytes) := do
  let (refs, x) ← (hookRefs hooks (.start count)).toOption
  let instructions ← (Body.decode code).toOption
  let woven ← ((Layout.of instructions refs).body refs).toOption
  if refs.isEmpty || 65535 < (Layout.of instructions refs).newLength then none
  else return (x.constants, Body.encode woven)

/-- What becomes of a body was computed from its instructions. -/
theorem exists_of_hooking? {hooks : List Hook} {count : UInt16} {fresh : List Constant}
    (h : hooking? hooks count code = some (fresh, code')) : ∃ refs x instructions woven,
      hookRefs hooks (.start count) = .ok (refs, x) ∧ refs.isEmpty = false
      ∧ Body.decode code = .ok instructions ∧ (Layout.of instructions refs).newLength ≤ 65535
      ∧ (Layout.of instructions refs).body refs = .ok woven ∧ x.constants = fresh
      ∧ Body.encode woven = code' := by
  have hok {ε α : Type} {result : Except ε α} {a : α} :
      result.toOption = some a ↔ result = .ok a := by
    cases result <;> simp [Except.toOption]
  simp only [hooking?, Option.bind_eq_bind, Option.bind_eq_some_iff, hok] at h
  obtain ⟨⟨refs, x⟩, hrefs, instructions, hdecode, woven, hwoven, h⟩ := h
  split at h
  · cases h
  next hnot =>
  rw [Bool.or_eq_true, not_or, Bool.not_eq_true, decide_eq_true_eq, Nat.not_lt] at hnot
  obtain ⟨rfl, rfl⟩ := Prod.mk.inj (Option.some.inj h)
  exact ⟨refs, x, instructions, woven, hrefs, hnot.1, hdecode, hnot.2, hwoven, rfl, rfl⟩

/-- The constants of hooks can be linked, and are counted from the slots of the class on. -/
theorem linked_hookRefs {hooks : List Hook} {x : PoolExtension} (hsize : more.length ≤ 65529)
    (hrefs : hookRefs hooks (.start (UInt16.ofNat (6 + more.length))) = .ok (refs, x)) :
    (∀ k ∈ x.constants, k.IsLinked) ∧ x.next = 6 + more.length + x.constants.length := by
  have hcount : (UInt16.ofNat (6 + more.length)).toNat = 6 + more.length :=
    UInt16.toNat_ofNat_of_lt' (show 6 + more.length < 65536 by omega)
  obtain ⟨hsound, -, -⟩ := PoolExtension.hookRefs_spec PoolExtension.sound_start hrefs
  refine ⟨fun k hk => ?_, ?_⟩
  · obtain ⟨⟨k', index⟩, hmem, rfl⟩ := List.mem_map.1 hk
    exact hsound.linked (List.mem_reverse.1 hmem)
  · rw [hsound.next, hcount, x.length_constants]

/-- **A stuffed class is woven** to a stuffed class, whether or not 32 bits can tell the new length of its
code attribute. -/
theorem weave_stuffed {plan : WeavePlan} {hooks : List Hook} {fresh : List Constant}
    (hne : code ≠ []) (hle : code.length ≤ 65535) (hn : 18 + code.length + n < 4294967296)
    (hmore : ∀ k ∈ more, k.IsLinked) (hsize : more.length ≤ 65529)
    (hentries : plan.entries = [(0, hooks)])
    (hhooking : hooking? hooks (UInt16.ofNat (6 + more.length)) code = some (fresh, code')) :
    (∀ k ∈ fresh, k.IsLinked)
      ∧ weave (stuffed more code n).encode (stuffed more code n).placed plan
        = .ok (some (stuffed (more ++ fresh) code' n).encode) := by
  obtain ⟨refs, x, instructions, woven, hrefs, hactive, hdecode, hlength, hwoven, rfl, rfl⟩ :=
    exists_of_hooking? hhooking
  let code' := Body.encode woven
  obtain ⟨hx, hnext⟩ := linked_hookRefs hsize hrefs
  obtain ⟨offset, hplaced⟩ :=
    exists_placed_stuffedCode code n ((stuffed more code n).poolEnd + 20)
  -- What is inserted is told by the body alone: the octets behind it are copied.
  have hinsert := insertHooks_stuffed (slice_stuffing hne hle hn hplaced) hdecode hlength hwoven
  have hpool : (stuffed more code n).placed.pool.count = UInt16.ofNat (6 + more.length) :=
    congrArg UInt16.ofNat (slots_stuffed hmore)
  have hsplice : spliceMethod (stuffed more code n).encode
      (stuffed more code n).placed.methods.toArray (0, hooks) (.start (UInt16.ofNat (6 + more.length)))
      = .ok (some (stuffedSplice more code code' n), x) := by
    rw [methods_stuffed, hplaced]
    refine bind_eq_ok_iff.2 ⟨_, _, hrefs, ?_⟩
    rw [if_neg (by rw [hactive]; exact Bool.false_ne_true), stuffedSplice, encode_stuffedCode code' n]
    exact bind_eq_ok_iff.2 ⟨_, x, lift_eq_ok_iff.2 ⟨hinsert, rfl⟩, rfl⟩
  have hrun : (plan.entries.mapM (spliceMethod (stuffed more code n).encode
      (stuffed more code n).placed.methods.toArray)).run (.start (stuffed more code n).placed.pool.count)
      = .ok ([some (stuffedSplice more code code' n)], x) := by
    rw [hentries, hpool]
    exact bind_eq_ok_iff.2 ⟨_, _, hsplice, rfl⟩
  have hslots : UInt16.ofNat (stuffed (more ++ x.constants) code' n).pool.slots.size = x.count := by
    rw [slots_stuffed (List.forall_mem_append.2 ⟨hmore, hx⟩), List.length_append, ← Nat.add_assoc,
      ← hnext, PoolExtension.count]
  have hconstants : (stuffed (more ++ x.constants) code' n).constants
      = (stuffed more code n).constants ++ x.constants :=
    (List.append_assoc ..).symm
  have hend : (stuffed more code n).placed.poolEnd = (stuffed more code n).poolEnd := rfl
  obtain ⟨hhead, hbetween, hbehind⟩ := @parts_stuffed more code n
  refine ⟨hx, ?_⟩
  rw [weave, hrun]
  show Except.ok (some (_ ++ _ ++ _ ++ _
    ++ applySplices _ _ [stuffedSplice more code code' n])) = _
  rw [hend, hhead, hbetween, hbehind, applySplices_stuffed, x.encode_eq, encode, poolOctets, hslots,
    hconstants, members_stuffed, List.flatMap_append]
  simp only [List.append_assoc]
  rfl

/-! ### Hooks that are entered -/

/-- The plan by which the first method enters hooks of these classes. -/
def enteringEach (hookClasses : List String) : WeavePlan where
  entries := [(0, hookClasses.map (⟨·, true, false⟩))]
  ascending := List.pairwise_singleton ..

/-- A plan for the hooks of two plans gives every method the hooks of both. -/
theorem hooksOf_enteringEach (outer inner : List String) (index : Nat) :
    (enteringEach (outer ++ inner)).hooksOf index
      = (enteringEach outer).hooksOf index ++ (enteringEach inner).hooksOf index := by
  cases index with
  | zero =>
    show (outer ++ inner).map _ = outer.map _ ++ inner.map _
    exact List.map_append
  | succ index => rfl

end ClassForm

namespace ClassFile

/-- A stuffed class is read as it was laid out. -/
theorem read_stuffed {more : List Constant} {code : Bytes} {n : Nat} (hmore : ∀ k ∈ more, k.IsLinked)
    (hsize : more.length ≤ 65529) (hne : code ≠ []) (hle : code.length ≤ 65535)
    (hn : 18 + code.length + n < 4294967296) :
    ClassFile.read (ClassForm.stuffed more code n).encode = .ok (ClassForm.stuffed more code n).placed
      ∧ (ClassForm.stuffed more code n).placed.pool.slots.size ≤ 65535 := by
  have hfits := ClassForm.fits_stuffed hmore hsize hne hle hn
  have hread := ClassForm.read_append hfits []
  rw [List.append_nil] at hread
  exact ⟨hread, hfits.slots⟩

/-- A class whose code attribute is made `2 ^ 32` octets long cannot be read any more. -/
theorem exists_weave_overlong {n : Nat} (hn : 23 + n = 4294967296) :
    ∃ out, ClassFile.read (ClassForm.stuffed [] [0xB1] n).encode
        = .ok (ClassForm.stuffed [] [0xB1] n).placed
      ∧ (ClassForm.stuffed [] [0xB1] n).placed.pool.slots.size ≤ 65535
      ∧ weave (ClassForm.stuffed [] [0xB1] n).encode (ClassForm.stuffed [] [0xB1] n).placed
        (ClassForm.enteringEach ["H"]) = .ok (some out)
      ∧ ∀ c', ClassFile.read out ≠ .ok c' := by
  have hlt : 18 + 1 + n < 4294967296 := by omega
  have hmod : (18 + 5 + n) % 4294967296 = 0 := by rw [hn]
  have hhooking : ClassForm.hooking? [⟨"H", true, false⟩] 6 [0xB1]
      = some ([.utf8 "H", .classInfo 6, .utf8 "onMethodEnter", .utf8 "()V", .nameAndType 8 9,
        .methodRef 7 10], [0xB8, 0, 11, 0, 0xB1]) := by decide +kernel
  have hentries : (ClassForm.enteringEach ["H"]).entries = [(0, [⟨"H", true, false⟩])] := rfl
  have hnone : ∀ k ∈ ([] : List Constant), k.IsLinked := nofun
  have hne : ([0xB1] : Bytes) ≠ [] := List.cons_ne_nil _ _
  obtain ⟨hread, hslots⟩ := read_stuffed hnone (by decide) hne (by decide) hlt
  obtain ⟨hlinked, hweave⟩ :=
    ClassForm.weave_stuffed hne (by decide) hlt hnone (by decide) hentries hhooking
  exact ⟨_, hread, hslots, hweave, ClassForm.not_read_stuffed hlinked (by decide) hmod⟩

/-- The slot 9 of the class is one of those that it needs not. -/
theorem slots_padded_nine {n : Nat} : (padded (n + 4)).pool.slots[9]? = some (some (.utf8 "")) := by
  simp [padded, paddedConstants, List.replicate_succ]

/-- **Weaving does not always give a class**. The code attribute of a class of 4 GiB is made `2 ^ 32`
octets long, is said to be empty, and no class is read any more. A class whose 65535 slots are all
taken gets constants that begin with index 0, and what is read then has not the constants of the
class. -/
theorem weave_overlong :
    (∃ bytes c out, ClassFile.read bytes = .ok c ∧ c.pool.slots.size ≤ 65535
        ∧ weave bytes c (ClassForm.enteringEach ["H"]) = .ok (some out)
        ∧ ∀ c', ClassFile.read out ≠ .ok c')
      ∧ ClassFile.read (paddedBytes 65528) = .ok (padded 65528)
      ∧ (padded 65528).pool.slots.size = 65535 + 1
      ∧ ∃ out, weave (paddedBytes 65528) (padded 65528) rounding = .ok (some out)
        ∧ ∀ c', ClassFile.read out = .ok c' → ¬ (padded 65528).Woven rounding c' := by
  have hcount : (padded 65528).pool.count = 0 := by
    rw [ConstantPool.count, size_slots_padded]
    rfl
  obtain ⟨out, hread, hslots, hweave, hnot⟩ := exists_weave_overlong (n := 4294967273) rfl
  obtain ⟨rest, hround⟩ := exists_weave_rounding hcount
  refine ⟨⟨_, _, out, hread, hslots, hweave, hnot⟩, read_paddedBytes (by decide), size_slots_padded,
    _, hround, fun c' hread' hwoven => ?_⟩
  have hslot := hwoven.slots (show 9 < (padded 65528).pool.slots.size by
    rw [size_slots_padded]
    decide)
  rw [pool_of_read hread' rfl takes_constantPool_nine] at hslot
  have hlast : (padded 65528).pool.slots[9]? = some (some (.utf8 "")) :=
    slots_padded_nine (n := 65524)
  rw [hlast] at hslot
  cases hslot

/-- A class whose code attribute is made `2 ^ 32` octets long by the second of two weavings. -/
theorem exists_weave_twice_overlong {n : Nat} (hn : 27 + n = 4294967296) :
    ∃ bytes c out₁ c₁ out₂ out₃, ClassFile.read bytes = .ok c ∧ c.pool.slots.size ≤ 65535
      ∧ weave bytes c (ClassForm.enteringEach ["H"]) = .ok (some out₁)
      ∧ ClassFile.read out₁ = .ok c₁ ∧ c₁.pool.slots.size ≤ 65535
      ∧ weave out₁ c₁ (ClassForm.enteringEach ["G"]) = .ok (some out₂)
      ∧ weave bytes c (ClassForm.enteringEach ["G", "H"]) = .ok (some out₃)
      ∧ (∀ c₂, ClassFile.read out₂ ≠ .ok c₂) ∧ ∀ c₃, ClassFile.read out₃ ≠ .ok c₃ := by
  have hlt : 18 + 1 + n < 4294967296 := by omega
  have hlt₁ : 18 + 5 + n < 4294967296 := by omega
  have hmod : (18 + 9 + n) % 4294967296 = 0 := by rw [hn]
  have hentries (hookClass : String) : (ClassForm.enteringEach [hookClass]).entries
      = [(0, [⟨hookClass, true, false⟩])] := rfl
  have hboth : (ClassForm.enteringEach ["G", "H"]).entries
      = [(0, [⟨"G", true, false⟩, ⟨"H", true, false⟩])] := rfl
  -- Bodies of a few octets are computed with; `n` stands for the 4 GiB behind them throughout.
  have hinner : ClassForm.hooking? [⟨"H", true, false⟩] 6 [0xB1]
      = some ([.utf8 "H", .classInfo 6, .utf8 "onMethodEnter", .utf8 "()V", .nameAndType 8 9,
        .methodRef 7 10], [0xB8, 0, 11, 0, 0xB1]) := by decide +kernel
  have houter : ClassForm.hooking? [⟨"G", true, false⟩] 12 [0xB8, 0, 11, 0, 0xB1]
      = some ([.utf8 "G", .classInfo 12, .utf8 "onMethodEnter", .utf8 "()V", .nameAndType 14 15,
        .methodRef 13 16], [0xB8, 0, 17, 0, 0xB8, 0, 11, 0, 0xB1]) := by decide +kernel
  have honce : ClassForm.hooking? [⟨"G", true, false⟩, ⟨"H", true, false⟩] 6 [0xB1]
      = some ([.utf8 "G", .classInfo 6, .utf8 "onMethodEnter", .utf8 "()V", .nameAndType 8 9,
        .methodRef 7 10, .utf8 "H", .classInfo 12, .methodRef 13 10],
        [0xB8, 0, 11, 0xB8, 0, 14, 0, 0, 0xB1]) := by decide +kernel
  have hnone : ∀ k ∈ ([] : List Constant), k.IsLinked := nofun
  have hne : ([0xB1] : Bytes) ≠ [] := List.cons_ne_nil _ _
  have hne₁ : ([0xB8, 0, 11, 0, 0xB1] : Bytes) ≠ [] := List.cons_ne_nil _ _
  obtain ⟨hread, hslots⟩ := read_stuffed hnone (by decide) hne (by decide) hlt
  obtain ⟨hlinked₁, hweave₁⟩ :=
    ClassForm.weave_stuffed hne (by decide) hlt hnone (by decide) (hentries "H") hinner
  obtain ⟨hread₁, hslots₁⟩ := read_stuffed hlinked₁ (by decide) hne₁ (by decide) hlt₁
  obtain ⟨hlinked₂, hweave₂⟩ :=
    ClassForm.weave_stuffed hne₁ (by decide) hlt₁ hlinked₁ (by decide) (hentries "G") houter
  obtain ⟨hlinked₃, hweave₃⟩ :=
    ClassForm.weave_stuffed hne (by decide) hlt hnone (by decide) hboth honce
  exact ⟨_, _, _, _, _, _, hread, hslots, hweave₁, hread₁, hslots₁, hweave₂, hweave₃,
    ClassForm.not_read_stuffed (List.forall_mem_append.2 ⟨hlinked₁, hlinked₂⟩) (by decide) hmod,
    ClassForm.not_read_stuffed hlinked₃ (by decide) hmod⟩

/-- **Weaving does not always nest**. An index that the class does not have is that of the earlier hook
when the class is woven twice, and of the later one when it is woven once, so that other names are
called. And when 32 bits cannot tell the lengths of the new code attributes, no class is read of what
is written. -/
theorem weave_nests_except :
    (∃ w : Weavings, ClassFile.read dangling = .ok w.base ∧ w.base.pool.slots.size ≤ 65535
        ∧ weave dangling w.base (planFor "H") = .ok (some w.innerOctets)
        ∧ ClassFile.read w.innerOctets = .ok w.inner
        ∧ weave w.innerOctets w.inner (planFor "G") = .ok (some w.twiceOctets)
        ∧ ClassFile.read w.twiceOctets = .ok w.twice
        ∧ (∀ index, (planForBoth "G" "H").hooksOf index
          = (planFor "G").hooksOf index ++ (planFor "H").hooksOf index)
        ∧ weave dangling w.base (planForBoth "G" "H") = .ok (some w.onceOctets)
        ∧ ClassFile.read w.onceOctets = .ok w.once
        ∧ w.twice.pool.slots.size ≤ 65535 ∧ w.once.pool.slots.size ≤ 65535
        ∧ w.twice.calledNames 0 = [("G", "onMethodEnter"), ("H", "onMethodEnter"),
          ("H", "onMethodEnter"), ("H", "onMethodExit"), ("G", "onMethodExit")]
        ∧ w.once.calledNames 0 = [("G", "onMethodEnter"), ("H", "onMethodEnter"),
          ("G", "onMethodEnter"), ("H", "onMethodExit"), ("G", "onMethodExit")])
      ∧ ∃ bytes c out₁ c₁ out₂ out₃, ClassFile.read bytes = .ok c ∧ c.pool.slots.size ≤ 65535
        ∧ weave bytes c (ClassForm.enteringEach ["H"]) = .ok (some out₁)
        ∧ ClassFile.read out₁ = .ok c₁ ∧ c₁.pool.slots.size ≤ 65535
        ∧ weave out₁ c₁ (ClassForm.enteringEach ["G"]) = .ok (some out₂)
        ∧ (∀ index, (ClassForm.enteringEach ["G", "H"]).hooksOf index
          = (ClassForm.enteringEach ["G"]).hooksOf index
            ++ (ClassForm.enteringEach ["H"]).hooksOf index)
        ∧ weave bytes c (ClassForm.enteringEach ["G", "H"]) = .ok (some out₃)
        ∧ (∀ c₂, ClassFile.read out₂ ≠ .ok c₂) ∧ ∀ c₃, ClassFile.read out₃ ≠ .ok c₃ := by
  obtain ⟨bytes, c, out₁, c₁, out₂, out₃, hread, hslots, hinner, hread₁, hslots₁, houter, hboth, hnot₂,
    hnot₃⟩ := exists_weave_twice_overlong (n := 4294967269) rfl
  exact ⟨weave_dangling, bytes, c, out₁, c₁, out₂, out₃, hread, hslots, hinner, hread₁, hslots₁, houter,
    ClassForm.hooksOf_enteringEach ["G"] ["H"], hboth, hnot₂, hnot₃⟩

end ClassFile

end AdviceWeaver

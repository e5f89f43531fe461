import AdviceWeaver.ClassFile.Reader
import AdviceWeaver.Proofs.ClassFile.Reading

/-!
# Constants, tables and annotations

The readers of everything that holds no attributes look at nothing but the octets they take. Tables
of method bodies are read back as they were written, stack map frames if they are of the kind that
their distance allows (`StackFrame.Writable`).

## Main results

* `Reader.plain_constant`, `Reader.plain_stackFrame`, `Reader.plain_annotations` — these readers are
  plain.
* `Reader.takes_stackFrame` — a written frame is read back.
-/

namespace AdviceWeaver.Reader

/-! ### Plain readers -/

section Fields

variable {α : Type}

theorem plain_one (f : UInt16 → α) : Plain (do return f (← u2)) :=
  plain_u2.bind fun _ => plain_pure _

theorem plain_two (f : UInt16 → UInt16 → α) : Plain (do return f (← u2) (← u2)) :=
  plain_u2.bind fun a => plain_one (f a)

/-- A record of four two-byte numbers is read without the offset. -/
theorem plain_four (f : UInt16 → UInt16 → UInt16 → UInt16 → α) :
    Plain (do return f (← u2) (← u2) (← u2) (← u2)) :=
  plain_u2.bind fun a => plain_u2.bind fun b => plain_two (f a b)

end Fields

/-- The body of a constant is read without the offset, whatever its tag: each tag is a record of numbers
or a text with its length in front. -/
theorem plain_constantOf (tag : UInt8) : Plain (constantOf tag) := by
  unfold constantOf
  split
  · exact plain_u2.bind fun n => (plain_bytes _).bind fun _ => plain_pure _
  · exact plain_u4.bind fun _ => plain_pure _
  · exact plain_u4.bind fun _ => plain_pure _
  · exact plain_u4.bind fun _ => plain_u4.bind fun _ => plain_pure _
  · exact plain_u4.bind fun _ => plain_u4.bind fun _ => plain_pure _
  · exact plain_one _
  · exact plain_one _
  · exact plain_two _
  · exact plain_two _
  · exact plain_two _
  · exact plain_two _
  · exact plain_u1.bind fun _ => plain_one _
  · exact plain_one _
  · exact plain_two _
  · exact plain_two _
  · exact plain_one _
  · exact plain_one _
  · exact plain_throw _

/-- A constant is read without the offset. -/
theorem plain_constant : Plain constant :=
  plain_u1.bind plain_constantOf

theorem plain_exceptionHandler : Plain exceptionHandler :=
  plain_four ExceptionHandler.mk

theorem plain_lineEntry : Plain lineEntry :=
  plain_two LineEntry.mk

theorem plain_variableEntry : Plain variableEntry :=
  plain_u2.bind fun a => plain_four (VariableEntry.mk a)

/-- What a verification type takes behind its tag. -/
def verificationTypeOf (tag : UInt8) : Reader VerificationType :=
  match tag with
  | 0 => return .top
  | 1 => return .integer
  | 2 => return .float
  | 3 => return .double
  | 4 => return .long
  | 5 => return .null
  | 6 => return .uninitializedThis
  | 7 => do return .object (← u2)
  | 8 => do return .uninitialized (← u2)
  | _ => throw (.badAttribute "StackMapTable")

theorem verificationType_eq : verificationType = u1 >>= verificationTypeOf := rfl

/-- What follows the tag of a verification type is read without the offset. -/
theorem plain_verificationTypeOf (tag : UInt8) : Plain (verificationTypeOf tag) := by
  unfold verificationTypeOf
  split
  any_goals exact plain_pure _
  · exact plain_one _
  · exact plain_one _
  · exact plain_throw _

theorem plain_verificationType : Plain verificationType :=
  plain_u1.bind plain_verificationTypeOf

/-- What a stack map frame takes behind its kind. -/
def stackFrameOf (kind : UInt8) : Reader StackFrame :=
  if kind < 64 then return .same kind.toUInt16
  else if kind < 128 then do return .oneItem (kind.toUInt16 - 64) (← verificationType)
  else if kind < 247 then throw (.badAttribute "StackMapTable")
  else if kind = 247 then do return .oneItemExtended (← u2) (← verificationType)
  else if kind < 251 then do return .chop (← u2) (251 - kind)
  else if kind = 251 then do return .sameExtended (← u2)
  else if kind < 255 then do
    return .append (← u2) (← times (kind.toNat - 251) verificationType)
  else do return .full (← u2) (← counted verificationType) (← counted verificationType)

theorem stackFrame_eq : stackFrame = u1 >>= stackFrameOf := rfl

/-- What follows the kind of a stack frame is read without the offset. -/
theorem plain_stackFrameOf (kind : UInt8) : Plain (stackFrameOf kind) := by
  refine .ite (plain_pure _) (.ite ?_ (.ite (plain_throw _) (.ite ?_ (.ite ?_ (.ite ?_ (.ite ?_
    ?_))))))
  · exact plain_verificationType.bind fun _ => plain_pure _
  · exact plain_u2.bind fun _ => plain_verificationType.bind fun _ => plain_pure _
  · exact plain_one _
  · exact plain_one _
  · exact plain_u2.bind fun _ => (plain_verificationType.times _).bind fun _ => plain_pure _
  · exact plain_u2.bind fun _ => plain_verificationType.counted.bind fun _ =>
      plain_verificationType.counted.bind fun _ => plain_pure _

theorem plain_stackFrame : Plain stackFrame :=
  plain_u1.bind plain_stackFrameOf

/-! ### Annotations -/

section Deepens

variable {α β : Type} {n : Nat} {R R' : Reader α}

/-- On at most `n` octets, `R'` takes what `R` takes. -/
def Deepens (n : Nat) (R R' : Reader α) : Prop :=
  ∀ offset octets a, octets.length ≤ n → R.Takes offset octets a → R'.Takes offset octets a

theorem deepens_refl (n : Nat) (R : Reader α) : Deepens n R R :=
  fun _ _ _ _ h => h

/-- Two choices by the same condition agree where both of their branches do. -/
theorem Deepens.ite {p : Prop} [Decidable p] {S S' : Reader α} (h : Deepens n R R')
    (hS : Deepens n S S') : Deepens n (if p then R else S) (if p then R' else S') := by
  split
  · exact h
  · exact hS

/-- Sequences agree where their readers do: a plain first reader leaves both at one cursor. -/
theorem Deepens.bind {f f' : α → Reader β} (hR : R.Plain)
    (h : Deepens n R R') (hff' : ∀ a, Deepens n (f a) (f' a)) :
    Deepens n (R >>= f) (R' >>= f') := by
  intro offset octets b hlength htakes
  obtain ⟨a, front, back, rfl, hfront, hback⟩ := hR.definite.takes_bind_iff.1 htakes
  rw [List.length_append] at hlength
  exact (h _ _ _ (by omega) hfront).bind (hff' a _ _ _ (by omega) hback)

/-- Repetitions agree where the repeated readers do, by induction on the count. -/
theorem Deepens.times (hR : R.Plain) (h : Deepens n R R') (count : Nat) :
    Deepens n (times count R) (times count R') := by
  induction count with
  | zero => exact deepens_refl n _
  | succ count ih =>
    rw [times_succ, times_succ]
    refine h.bind hR fun a => ?_
    rw [map_eq_bind, map_eq_bind]
    exact ih.bind (hR.times count) fun _ => deepens_refl n _

/-- Counted tables agree where the readers of their items do. -/
theorem Deepens.counted (hR : R.Plain) (h : Deepens n R R') :
    Deepens n (counted R) (counted R') :=
  (deepens_refl n _).bind plain_u2 fun count => h.times hR count.toNat

end Deepens

section Annotation

variable {value value' : Reader ElementValue}

/-- A named value of an annotation is read without the offset if the value is. -/
theorem plain_element (h : value.Plain) :
    Plain (do let name ← u2; return (name, ← value) : Reader (UInt16 × ElementValue)) :=
  plain_u2.bind fun _ => h.bind fun _ => plain_pure _

theorem plain_annotationOf (h : value.Plain) : Plain (annotationOf value) :=
  plain_u2.bind fun _ => (plain_element h).counted.bind fun _ => plain_pure _

/-- Annotations agree where the readers of their values do. -/
theorem Deepens.annotationOf {n : Nat} (hvalue : value.Plain) (h : Deepens n value value') :
    Deepens n (annotationOf value) (annotationOf value') := by
  have helement : Deepens n (do let name ← u2; return (name, ← value) : Reader _)
      (do let name ← u2; return (name, ← value')) :=
    (deepens_refl n _).bind plain_u2 fun _ => h.bind hvalue fun _ => deepens_refl n _
  exact (deepens_refl n _).bind plain_u2 fun _ =>
    (helement.counted (plain_element hvalue)).bind (plain_element hvalue).counted fun _ =>
      deepens_refl n _

end Annotation

/-- What an element value takes behind its tag. -/
def elementValueOf (depth : Nat) (tag : UInt8) : Reader ElementValue :=
  if tag ∈ constantTags then do return .const tag (← u2)
  else if tag = 0x65 then do return .enumConst (← u2) (← u2)
  else if tag = 0x63 then do return .classInfo (← u2)
  else if tag = 0x40 then do
    let a ← annotationOf (elementValue depth)
    return .nested a.type a.elements
  else if tag = 0x5B then do return .array (← counted (elementValue depth))
  else throw (.badAttribute "annotation")

theorem elementValue_succ (depth : Nat) :
    elementValue (depth + 1) = u1 >>= elementValueOf depth := rfl

/-- What follows the tag of an element value is read without the offset if the values inside it are. -/
theorem plain_elementValueOf {depth : Nat} (h : (elementValue depth).Plain) (tag : UInt8) :
    Plain (elementValueOf depth tag) := by
  refine .ite (plain_one _) (.ite (plain_two _) (.ite (plain_one _) (.ite ?_ (.ite ?_
    (plain_throw _)))))
  · exact (plain_annotationOf h).bind fun _ => plain_pure _
  · exact h.counted.bind fun _ => plain_pure _

/-- An element value is read without the offset, by induction on the depth. -/
theorem plain_elementValue (depth : Nat) : Plain (elementValue depth) := by
  induction depth with
  | zero => exact plain_throw _
  | succ depth ih =>
    rw [elementValue_succ]
    exact plain_u1.bind (plain_elementValueOf ih)

/-- What follows the tag of an element value agrees at two depths if the values inside do. -/
theorem Deepens.elementValueOf {n depth depth' : Nat}
    (h : Deepens n (elementValue depth) (elementValue depth')) (tag : UInt8) :
    Deepens n (elementValueOf depth tag) (elementValueOf depth' tag) := by
  have hplain := plain_elementValue depth
  refine (deepens_refl n _).ite ((deepens_refl n _).ite ((deepens_refl n _).ite (.ite ?_ (.ite ?_
    (deepens_refl n _)))))
  · exact (h.annotationOf hplain).bind (plain_annotationOf hplain) fun _ => deepens_refl n _
  · exact (h.counted hplain).bind hplain.counted fun _ => deepens_refl n _

/-- **Nesting** needs no more depth than there are octets. -/
theorem deepens_elementValue (depth n : Nat) : Deepens n (elementValue depth) (elementValue n) := by
  induction depth generalizing n with
  | zero =>
    intro offset octets v _ htakes
    exact (takes_throw_iff.1 htakes).elim
  | succ depth ih =>
    intro offset octets v hlength htakes
    obtain ⟨tag, front, back, rfl, hfront, hback⟩ := definite_u1.takes_bind_iff.1 htakes
    obtain rfl := takes_u1_iff.1 hfront
    cases n with
    | zero => simp at hlength
    | succ n =>
      simp only [List.length_append, List.length_singleton] at hlength
      exact hfront.bind ((ih n).elementValueOf tag _ _ _ (by omega) hback)

/-- Annotations take what they take at any depth that suffices. -/
theorem plain_annotations : Plain annotations := by
  have hplain (depth : Nat) : Plain (counted (annotationOf (elementValue depth))) :=
    (plain_annotationOf (plain_elementValue depth)).counted
  have htakes {depth offset : Nat} {octets : Bytes} {list : List Annotation}
      (h : (counted (annotationOf (elementValue depth))).Takes offset octets list) :
      annotations.Takes offset octets list := by
    intro rest
    have hvalue := deepens_elementValue depth (octets ++ rest).length
    have hdeep := (hvalue.annotationOf (plain_elementValue depth)).counted
      (plain_annotationOf (plain_elementValue depth))
    exact hdeep offset octets list (by simp) h rest
  constructor
  · rintro ⟨offset, rest⟩ list c' h
    obtain ⟨octets, hrest, hoffset, hread⟩ := (hplain rest.length).definite _ _ _ h
    exact ⟨octets, hrest, hoffset, htakes hread⟩
  · intro offset offset' octets list h
    have hread : counted (annotationOf (elementValue octets.length)) ⟨offset, octets⟩
        = .ok (list, ⟨offset + octets.length, []⟩) := by
      simpa [annotations] using h []
    exact htakes ((hplain _).portable ((hplain _).definite.takes_of_eq_ok hread))

/-! ### Written tables -/

/-- A written line entry is read back. -/
theorem takes_lineEntry (e : LineEntry) (offset : Nat) : lineEntry.Takes offset e.encode e := by
  have hoctets : e.encode = Bytes.ofUInt16 e.start ++ (Bytes.ofUInt16 e.line ++ []) := by
    simp [LineEntry.encode]
  rw [hoctets]
  exact (takes_u2 _ _).bind ((takes_u2 _ _).bind (takes_pure e _))

/-- A written variable entry is read back. -/
theorem takes_variableEntry (e : VariableEntry) (offset : Nat) :
    variableEntry.Takes offset e.encode e := by
  have hoctets : e.encode = Bytes.ofUInt16 e.start ++ (Bytes.ofUInt16 e.length
      ++ (Bytes.ofUInt16 e.name ++ (Bytes.ofUInt16 e.descriptor
        ++ (Bytes.ofUInt16 e.slot ++ [])))) := by
    simp [VariableEntry.encode]
  rw [hoctets]
  exact (takes_u2 _ _).bind ((takes_u2 _ _).bind ((takes_u2 _ _).bind ((takes_u2 _ _).bind
    ((takes_u2 _ _).bind (takes_pure e _)))))

/-- A written exception handler is read back. -/
theorem takes_exceptionHandler (h : ExceptionHandler) (offset : Nat) :
    exceptionHandler.Takes offset h.encode h := by
  have hoctets : h.encode = Bytes.ofUInt16 h.start ++ (Bytes.ofUInt16 h.stop
      ++ (Bytes.ofUInt16 h.handler ++ (Bytes.ofUInt16 h.catchType ++ []))) := by
    simp [ExceptionHandler.encode]
  rw [hoctets]
  exact (takes_u2 _ _).bind ((takes_u2 _ _).bind ((takes_u2 _ _).bind ((takes_u2 _ _).bind
    (takes_pure h _))))

/-- A written verification type is read back, with the offset or class it names. -/
theorem takes_verificationType (t : VerificationType) (offset : Nat) :
    verificationType.Takes offset t.encode t := by
  cases t with
  | object type =>
    rw [VerificationType.encode, ← List.append_nil (Bytes.ofUInt16 type)]
    exact (takes_u1 7 offset).bind ((takes_u2 type _).bind (takes_pure _ _))
  | uninitialized pc =>
    rw [VerificationType.encode, ← List.append_nil (Bytes.ofUInt16 pc)]
    exact (takes_u1 8 offset).bind ((takes_u2 pc _).bind (takes_pure _ _))
  | _ => exact (takes_u1 _ offset).bind (takes_pure _ _)

end AdviceWeaver.Reader

namespace AdviceWeaver

/-- Whether a frame is of a kind that can hold its distance and its types. -/
def StackFrame.Writable : StackFrame → Prop
  | .same delta => delta ≤ 63
  | .oneItem delta _ => delta ≤ 63
  | .oneItemExtended .. | .sameExtended _ => True
  | .chop _ locals => 1 ≤ locals ∧ locals ≤ 3
  | .append _ locals => 1 ≤ locals.length ∧ locals.length ≤ 3
  | .full _ locals stack => locals.length < 65536 ∧ stack.length < 65536

namespace Reader

/-- The kind of a frame without locals or stack is its delta. -/
theorem short_kind {delta : UInt16} (h : delta ≤ 63) :
    delta.toUInt8 < 64 ∧ delta.toUInt8.toUInt16 = delta := by
  simp only [UInt16.le_iff_toNat_le, UInt16.reduceToNat] at h
  rw [UInt8.lt_iff_toNat_lt, ← UInt16.toNat_inj]
  simp only [UInt16.toNat_toUInt8, UInt8.toNat_toUInt16, UInt8.reduceToNat]
  omega

/-- The kind of a frame with one stack item is its delta from 64 up. -/
theorem item_kind {delta : UInt16} (h : delta ≤ 63) :
    ¬ 64 + delta.toUInt8 < 64 ∧ 64 + delta.toUInt8 < 128
      ∧ (64 + delta.toUInt8).toUInt16 - 64 = delta := by
  simp only [UInt16.le_iff_toNat_le, UInt16.reduceToNat] at h
  rw [UInt8.lt_iff_toNat_lt, UInt8.lt_iff_toNat_lt, ← UInt16.toNat_inj]
  simp only [UInt16.toNat_sub, UInt8.toNat_add, UInt16.toNat_toUInt8, UInt8.toNat_toUInt16,
    UInt8.reduceToNat, UInt16.reduceToNat]
  omega

/-- A short append or chop is of one, two or three locals. -/
theorem few_locals {locals : UInt8} (h : 1 ≤ locals ∧ locals ≤ 3) :
    locals = 1 ∨ locals = 2 ∨ locals = 3 := by
  simp only [UInt8.le_iff_toNat_le, ← UInt8.toNat_inj, UInt8.reduceToNat] at h ⊢
  omega

/-- **A written frame** is read back. -/
theorem takes_stackFrame {f : StackFrame} (h : f.Writable) (offset : Nat) :
    stackFrame.Takes offset f.encode f := by
  cases f with
  | same delta =>
    obtain ⟨hlt, hdelta⟩ := short_kind h
    have hframe : StackFrame.same delta.toUInt8.toUInt16 = .same delta := by rw [hdelta]
    refine (takes_u1 delta.toUInt8 offset).bind ?_
    rw [if_pos hlt, hframe]
    exact takes_pure _ _
  | oneItem delta item =>
    obtain ⟨hlow, hhigh, hdelta⟩ := item_kind h
    rw [StackFrame.encode, ← List.append_nil item.encode]
    refine (takes_u1 (64 + delta.toUInt8) offset).bind ?_
    rw [if_neg hlow, if_pos hhigh, hdelta]
    exact (takes_verificationType item _).bind (takes_pure _ _)
  | oneItemExtended delta item =>
    have hoctets : (StackFrame.oneItemExtended delta item).encode
        = [247] ++ (Bytes.ofUInt16 delta ++ (item.encode ++ [])) := by
      simp [StackFrame.encode]
    rw [hoctets]
    refine (takes_u1 247 offset).bind ?_
    exact (takes_u2 delta _).bind ((takes_verificationType item _).bind (takes_pure _ _))
  | chop delta locals =>
    rw [StackFrame.encode, ← List.append_nil (Bytes.ofUInt16 delta)]
    obtain rfl | rfl | rfl := few_locals h
    · exact (takes_u1 250 offset).bind ((takes_u2 delta _).bind (takes_pure _ _))
    · exact (takes_u1 249 offset).bind ((takes_u2 delta _).bind (takes_pure _ _))
    · exact (takes_u1 248 offset).bind ((takes_u2 delta _).bind (takes_pure _ _))
  | sameExtended delta =>
    rw [StackFrame.encode, ← List.append_nil (Bytes.ofUInt16 delta)]
    refine (takes_u1 251 offset).bind ?_
    exact (takes_u2 delta _).bind (takes_pure _ _)
  | append delta locals =>
    have hoctets : (StackFrame.append delta locals).encode
        = [251 + UInt8.ofNat locals.length] ++ (Bytes.ofUInt16 delta
          ++ (locals.flatMap VerificationType.encode ++ [])) := by
      simp [StackFrame.encode]
    have hlocals := takes_times fun t (_ : t ∈ locals) => takes_verificationType t
    rw [hoctets]
    obtain hl | hl | hl : locals.length = 1 ∨ locals.length = 2 ∨ locals.length = 3 := by
      have hcount := h
      simp only [StackFrame.Writable] at hcount
      omega
    all_goals
      rw [hl] at hlocals ⊢
      refine (takes_u1 _ offset).bind ?_
      exact (takes_u2 delta _).bind ((hlocals _).bind (takes_pure _ _))
  | full delta locals stack =>
    have hoctets : (StackFrame.full delta locals stack).encode = [255] ++ (Bytes.ofUInt16 delta
        ++ (encodeTable VerificationType.encode locals
          ++ (encodeTable VerificationType.encode stack ++ []))) := by
      simp [StackFrame.encode]
    rw [hoctets]
    refine (takes_u1 255 offset).bind ?_
    exact (takes_u2 delta _).bind
      ((takes_encodeTable h.1 (fun t _ => takes_verificationType t) _).bind
        ((takes_encodeTable h.2 (fun t _ => takes_verificationType t) _).bind (takes_pure _ _)))

/-! ### What tables were read from -/

variable {α : Type} {offset : Nat} {octets : Bytes}

/-- A record of one number is taken from that number's octets. -/
theorem takes_one_iff {f : UInt16 → α} {a : α} :
    (do return f (← u2) : Reader α).Takes offset octets a
      ↔ ∃ n, octets = Bytes.ofUInt16 n ∧ f n = a := by
  rw [takes_u2_bind_iff]
  simp

/-- A record of two numbers is taken from their octets in order. -/
theorem takes_two_iff {f : UInt16 → UInt16 → α} {a : α} :
    (do return f (← u2) (← u2) : Reader α).Takes offset octets a
      ↔ ∃ m n, octets = Bytes.ofUInt16 m ++ Bytes.ofUInt16 n ∧ f m n = a := by
  rw [takes_u2_bind_iff]
  simp only [takes_one_iff]
  constructor
  · rintro ⟨m, _, rfl, n, rfl, rfl⟩
    exact ⟨m, n, rfl, rfl⟩
  · rintro ⟨m, n, rfl, rfl⟩
    exact ⟨m, _, rfl, n, rfl, rfl⟩

/-- A record of four numbers is taken from their octets in order. -/
theorem takes_four_iff {f : UInt16 → UInt16 → UInt16 → UInt16 → α} {a : α} :
    (do return f (← u2) (← u2) (← u2) (← u2) : Reader α).Takes offset octets a
      ↔ ∃ k l m n, octets = Bytes.ofUInt16 k ++ (Bytes.ofUInt16 l ++ (Bytes.ofUInt16 m
          ++ Bytes.ofUInt16 n)) ∧ f k l m n = a := by
  constructor
  · intro h
    obtain ⟨k, _, rfl, h₁⟩ := takes_u2_bind_iff.1 h
    obtain ⟨l, _, rfl, h₂⟩ := takes_u2_bind_iff.1 h₁
    obtain ⟨m, n, rfl, rfl⟩ := takes_two_iff.1 h₂
    exact ⟨k, l, m, n, rfl, rfl⟩
  · rintro ⟨k, l, m, n, rfl, rfl⟩
    exact takes_u2_bind_iff.2 ⟨k, _, rfl, takes_u2_bind_iff.2 ⟨l, _, rfl,
      takes_two_iff.2 ⟨m, n, rfl, rfl⟩⟩⟩

/-- The octets a line entry was taken from are its written form. -/
theorem eq_encode_of_lineEntry {e : LineEntry} (h : lineEntry.Takes offset octets e) :
    octets = e.encode := by
  obtain ⟨start, line, rfl, rfl⟩ := takes_two_iff.1 h
  rfl

/-- The octets an exception handler was taken from are its written form. -/
theorem eq_encode_of_exceptionHandler {e : ExceptionHandler}
    (h : exceptionHandler.Takes offset octets e) : octets = e.encode := by
  obtain ⟨start, stop, handler, catchType, rfl, rfl⟩ := takes_four_iff.1 h
  simp [ExceptionHandler.encode]

/-- The octets a variable entry was taken from are its written form. -/
theorem eq_encode_of_variableEntry {e : VariableEntry}
    (h : variableEntry.Takes offset octets e) : octets = e.encode := by
  obtain ⟨start, _, rfl, hrest⟩ :=
    takes_u2_bind_iff.1 h
  obtain ⟨length, name, descriptor, slot, rfl, rfl⟩ := takes_four_iff.1 hrest
  simp [VariableEntry.encode]

/-- The octets a verification type was taken from are its written form. -/
theorem eq_encode_of_verificationType {t : VerificationType}
    (h : verificationType.Takes offset octets t) : octets = t.encode := by
  rw [verificationType_eq] at h
  obtain ⟨tag, rest, rfl, hrest⟩ := takes_u1_bind_iff.1 h
  unfold verificationTypeOf at hrest
  split at hrest
  any_goals
    obtain ⟨rfl, rfl⟩ := takes_pure_iff.1 hrest
    rfl
  · obtain ⟨type, rfl, rfl⟩ := takes_one_iff.1 hrest
    rfl
  · obtain ⟨pc, rfl, rfl⟩ := takes_one_iff.1 hrest
    rfl
  · exact (takes_throw_iff.1 hrest).elim

/-- The octets a row of items was taken from are their written forms one after the other. -/
theorem takesEach_eq {R : Reader α} {encode : α → Bytes} {items : List α}
    (hR : ∀ {offset octets a}, R.Takes offset octets a → octets = encode a)
    (h : R.TakesEach offset octets items) : octets = items.flatMap encode := by
  induction items generalizing offset octets with
  | nil => exact h
  | cons a rest ih =>
    obtain ⟨front, back, rfl, hfront, hback⟩ := h
    rw [List.flatMap_cons, ← hR hfront, ← ih hback]

/-- **A table** is what was read for it. -/
theorem eq_encodeTable {R : Reader α} {encode : α → Bytes} {items : List α} (hdefinite : R.Definite)
    (hR : ∀ {offset octets a}, R.Takes offset octets a → octets = encode a)
    (h : (counted R).Takes offset octets items) : octets = encodeTable encode items := by
  obtain ⟨-, each, rfl, heach⟩ := (takes_counted_iff hdefinite).1 h
  rw [encodeTable, takesEach_eq hR heach]

/-- A kind below 64 is a delta that fits the short form, and names itself. -/
theorem short_delta {kind : UInt8} (h : kind < 64) :
    kind.toUInt16 ≤ 63 ∧ kind.toUInt16.toUInt8 = kind := by
  simp only [UInt8.lt_iff_toNat_lt, UInt8.reduceToNat] at h
  simp only [UInt16.le_iff_toNat_le, ← UInt8.toNat_inj, UInt16.reduceToNat, UInt8.toNat_toUInt16,
    UInt16.toNat_toUInt8]
  omega

/-- A kind from 64 up to 127 is a delta with one stack item, and names itself. -/
theorem item_delta {kind : UInt8} (hlow : ¬ kind < 64) (hhigh : kind < 128) :
    kind.toUInt16 - 64 ≤ 63 ∧ 64 + (kind.toUInt16 - 64).toUInt8 = kind := by
  simp only [UInt8.lt_iff_toNat_lt, UInt8.reduceToNat] at hlow hhigh
  simp only [UInt16.le_iff_toNat_le, ← UInt8.toNat_inj, UInt16.reduceToNat, UInt8.toNat_toUInt16,
    UInt16.toNat_toUInt8, UInt16.toNat_sub, UInt8.toNat_add, UInt8.reduceToNat]
  omega

/-- A kind between 248 and 250 chops one to three locals, and names itself. -/
theorem chop_locals {kind : UInt8} (hne : ¬ kind = 247) (hlow : ¬ kind < 247)
    (hhigh : kind < 251) :
    (1 ≤ 251 - kind ∧ 251 - kind ≤ 3) ∧ 251 - (251 - kind) = kind := by
  simp only [UInt8.lt_iff_toNat_lt, ← UInt8.toNat_inj, UInt8.reduceToNat] at hne hlow hhigh
  simp only [UInt8.le_iff_toNat_le, ← UInt8.toNat_inj, UInt8.toNat_sub, UInt8.reduceToNat]
  omega

/-- A kind between 252 and 254 appends one to three locals, and names itself. -/
theorem append_kind {kind : UInt8} (hne : ¬ kind = 251) (hlow : ¬ kind < 251)
    (hhigh : kind < 255) :
    (1 ≤ kind.toNat - 251 ∧ kind.toNat - 251 ≤ 3)
      ∧ 251 + UInt8.ofNat (kind.toNat - 251) = kind := by
  simp only [UInt8.lt_iff_toNat_lt, ← UInt8.toNat_inj, UInt8.reduceToNat] at hne hlow hhigh
  simp only [← UInt8.toNat_inj, UInt8.toNat_add, UInt8.toNat_ofNat', UInt8.reduceToNat]
  omega

/-- The one kind left over is that of a full frame. -/
theorem full_kind {kind : UInt8} (h : ¬ kind < 255) : kind = 255 := by
  have hlt := kind.toNat_lt
  simp only [UInt8.lt_iff_toNat_lt, UInt8.reduceToNat] at h
  simp only [← UInt8.toNat_inj, UInt8.reduceToNat]
  omega

/-- **A frame** that was read is of a kind that can hold it, and is what was read. -/
theorem stackFrame_of_takes {f : StackFrame} (h : stackFrame.Takes offset octets f) :
    f.Writable ∧ octets = f.encode := by
  rw [stackFrame_eq] at h
  obtain ⟨kind, rest, rfl, hrest⟩ := takes_u1_bind_iff.1 h
  unfold stackFrameOf at hrest
  -- Kinds are told apart from the lowest on, as the reader does: each range is one kind of frame.
  split at hrest
  · next hkind =>
    obtain ⟨rfl, rfl⟩ := takes_pure_iff.1 hrest
    obtain ⟨hle, hkind'⟩ := short_delta hkind
    exact ⟨hle, by rw [StackFrame.encode, hkind']⟩
  split at hrest
  · next hlow hhigh =>
    obtain ⟨item, front, back, rfl, hitem, hback⟩ :=
      plain_verificationType.definite.takes_bind_iff.1 hrest
    obtain ⟨rfl, rfl⟩ := takes_pure_iff.1 hback
    obtain ⟨hle, hkind⟩ := item_delta hlow hhigh
    refine ⟨hle, ?_⟩
    rw [StackFrame.encode, hkind, List.append_nil, eq_encode_of_verificationType hitem]
  split at hrest
  · exact (takes_throw_iff.1 hrest).elim
  next hlow =>
  split at hrest
  · next hkind =>
    obtain ⟨delta, back, rfl, hmore⟩ := takes_u2_bind_iff.1 hrest
    obtain ⟨item, front, back, rfl, hitem, hback⟩ :=
      plain_verificationType.definite.takes_bind_iff.1 hmore
    obtain ⟨rfl, rfl⟩ := takes_pure_iff.1 hback
    refine ⟨trivial, ?_⟩
    rw [StackFrame.encode, hkind, List.append_nil, eq_encode_of_verificationType hitem]
    rfl
  next hne =>
  split at hrest
  · next hhigh =>
    obtain ⟨delta, rfl, rfl⟩ := takes_one_iff.1 hrest
    obtain ⟨hlocals, hkind⟩ := chop_locals hne hlow hhigh
    exact ⟨hlocals, by rw [StackFrame.encode, hkind]⟩
  next hlow =>
  split at hrest
  · next hkind =>
    obtain ⟨delta, rfl, rfl⟩ := takes_one_iff.1 hrest
    exact ⟨trivial, by rw [StackFrame.encode, hkind]⟩
  next hne =>
  split at hrest
  · next hhigh =>
    obtain ⟨delta, back, rfl, hmore⟩ := takes_u2_bind_iff.1 hrest
    obtain ⟨locals, front, back, rfl, hlocals, hback⟩ :=
      (plain_verificationType.times _).definite.takes_bind_iff.1 hmore
    obtain ⟨rfl, rfl⟩ := takes_pure_iff.1 hback
    obtain ⟨hcount, heach⟩ := (takes_times_iff plain_verificationType.definite).1 hlocals
    obtain ⟨hfew, hkind⟩ := append_kind hne hlow hhigh
    refine ⟨by rwa [← hcount] at hfew, ?_⟩
    rw [StackFrame.encode, hcount, hkind, List.append_nil,
      takesEach_eq eq_encode_of_verificationType heach]
    rfl
  · next hhigh =>
    have hcounted := plain_verificationType.counted
    obtain ⟨delta, back, rfl, hmore⟩ := takes_u2_bind_iff.1 hrest
    obtain ⟨locals, front, back, rfl, hlocals, hback⟩ :=
      hcounted.definite.takes_bind_iff.1 hmore
    obtain ⟨stack, front', back', rfl, hstack, hback'⟩ :=
      hcounted.definite.takes_bind_iff.1 hback
    obtain ⟨rfl, rfl⟩ := takes_pure_iff.1 hback'
    have hdefinite := plain_verificationType.definite
    refine ⟨⟨((takes_counted_iff hdefinite).1 hlocals).1,
      ((takes_counted_iff hdefinite).1 hstack).1⟩, ?_⟩
    rw [StackFrame.encode, full_kind hhigh, List.append_nil,
      eq_encodeTable hdefinite eq_encode_of_verificationType hlocals,
      eq_encodeTable hdefinite eq_encode_of_verificationType hstack]
    simp

/-- Frames that were read can be written. -/
theorem writable_of_takesEach {frames : List StackFrame}
    (h : stackFrame.TakesEach offset octets frames) : ∀ frame ∈ frames, frame.Writable := by
  intro frame hframe
  obtain ⟨_, _, htakes, -⟩ := h.of_mem hframe
  exact (stackFrame_of_takes htakes).1

end Reader

end AdviceWeaver

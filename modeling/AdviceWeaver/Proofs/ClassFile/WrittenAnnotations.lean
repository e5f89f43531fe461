import AdviceWeaver.Proofs.ClassFile.Tables

/-!
# Written annotations

The form of annotations in a class file, and that they are read back from it, however deep their values
are nested. Lists are told by 16 bits and constants by one of nine tags (`ElementValue.Fits`).

## Main results

* `Reader.takes_elementValue` — a written value is read back at every depth that its octets allow.
* `Reader.takes_annotations` — written annotations are read back.
-/

namespace AdviceWeaver

/-! ### The form of annotations -/

mutual

/-- The form of an element value: a tag, and what belongs to it. -/
def ElementValue.encode : ElementValue → Bytes
  | .const tag value => tag :: Bytes.ofUInt16 value
  | .enumConst type name => 0x65 :: (Bytes.ofUInt16 type ++ Bytes.ofUInt16 name)
  | .classInfo descriptor => 0x63 :: Bytes.ofUInt16 descriptor
  | .nested type elements =>
    0x40 :: (Bytes.ofUInt16 type
      ++ (Bytes.ofUInt16 (UInt16.ofNat elements.length) ++ ElementValue.encodeElements elements))
  | .array values =>
    0x5B :: (Bytes.ofUInt16 (UInt16.ofNat values.length) ++ ElementValue.encodeValues values)

/-- The forms of elements, each a name and a value. -/
def ElementValue.encodeElements : List (UInt16 × ElementValue) → Bytes
  | [] => []
  | (name, value) :: rest =>
    Bytes.ofUInt16 name ++ value.encode ++ ElementValue.encodeElements rest

/-- The forms of values in a row. -/
def ElementValue.encodeValues : List ElementValue → Bytes
  | [] => []
  | value :: rest => value.encode ++ ElementValue.encodeValues rest

end

/-- The form of an element of an annotation. -/
def encodeElement (e : UInt16 × ElementValue) : Bytes :=
  Bytes.ofUInt16 e.1 ++ e.2.encode

/-- The form of an annotation. -/
def Annotation.encode (a : Annotation) : Bytes :=
  Bytes.ofUInt16 a.type ++ encodeTable encodeElement a.elements

namespace ElementValue

/-- Named values are written one after the other. -/
theorem encodeElements_eq (elements : List (UInt16 × ElementValue)) :
    encodeElements elements = elements.flatMap encodeElement := by
  induction elements with
  | nil => rfl
  | cons e rest ih =>
    rw [encodeElements, ih]
    rfl

/-- Values are written one after the other. -/
theorem encodeValues_eq (values : List ElementValue) :
    encodeValues values = values.flatMap encode := by
  induction values with
  | nil => rfl
  | cons value rest ih =>
    rw [encodeValues, ih]
    rfl

/-- A nested annotation is written behind a tag of its own. -/
theorem encode_nested (a : Annotation) : (nested a.type a.elements).encode = 0x40 :: a.encode := by
  rw [encode, encodeElements_eq]
  rfl

/-- An array is its tag and the table of its values. -/
theorem encode_array (values : List ElementValue) :
    (array values).encode = 0x5B :: encodeTable encode values := by
  rw [encode, encodeValues_eq]
  rfl

/-- Whether an element value can be written. -/
inductive Fits : ElementValue → Prop
  | const {tag : UInt8} {value : UInt16} (htag : tag ∈ Reader.constantTags) : Fits (.const tag value)
  | enumConst (type name : UInt16) : Fits (.enumConst type name)
  | classInfo (descriptor : UInt16) : Fits (.classInfo descriptor)
  | nested {type : UInt16} {elements : List (UInt16 × ElementValue)}
      (hcount : elements.length < 65536) (helements : ∀ e ∈ elements, Fits e.2) :
      Fits (.nested type elements)
  | array {values : List ElementValue} (hcount : values.length < 65536)
      (hvalues : ∀ v ∈ values, Fits v) : Fits (.array values)

end ElementValue

/-- Whether an annotation can be written. -/
structure Annotation.Fits (a : Annotation) : Prop where
  count : a.elements.length < 65536
  elements : ∀ e ∈ a.elements, e.2.Fits

/-! ### Reading it back -/

/-- A table is longer than each of its entries. -/
theorem length_lt_encodeTable {α : Type} {encode : α → Bytes} {items : List α} {a : α}
    (ha : a ∈ items) : (encode a).length < (encodeTable encode items).length := by
  have hle := (List.sublist_flatten_of_mem (List.mem_map_of_mem (f := encode) ha)).length_le
  rw [encodeTable, List.length_append, List.flatMap_def, Bytes.length_ofUInt16]
  omega

/-- A value inside an annotation is no longer than the annotation. -/
theorem length_value_le {a : Annotation} {e : UInt16 × ElementValue}
    (he : e ∈ a.elements) : e.2.encode.length ≤ a.encode.length := by
  have hlt : (encodeElement e).length < _ := length_lt_encodeTable he
  rw [encodeElement, List.length_append] at hlt
  unfold Annotation.encode
  rw [List.length_append]
  omega

/-- Every value has a tag, so a level of depth is left for what is nested in it. -/
theorem ElementValue.exists_depth {v : ElementValue} {depth : Nat} (h : v.encode.length ≤ depth) :
    ∃ n, depth = n + 1 := by
  refine Nat.exists_eq_add_one.2 (Nat.lt_of_lt_of_le ?_ h)
  cases v <;> simp [ElementValue.encode]

namespace Reader

/-- A written annotation is read back by a reader that reads back its values. -/
theorem takes_annotationOf {value : Reader ElementValue} {a : Annotation}
    (hcount : a.elements.length < 65536)
    (h : ∀ e ∈ a.elements, ∀ offset, value.Takes offset e.2.encode e.2) (offset : Nat) :
    (annotationOf value).Takes offset a.encode a := by
  have helement (e : UInt16 × ElementValue) (he : e ∈ a.elements) (offset : Nat) :
      (do let name ← u2; return (name, ← value) : Reader (UInt16 × ElementValue)).Takes offset
        (encodeElement e) e := by
    rw [encodeElement, ← List.append_nil e.2.encode]
    exact (takes_u2 _ _).bind ((h e he _).bind (takes_pure _ _))
  unfold Annotation.encode
  rw [← List.append_nil (encodeTable encodeElement a.elements)]
  exact (takes_u2 _ _).bind ((takes_encodeTable hcount helement _).bind (takes_pure _ _))

/-- **A written value** is read back at every depth that its octets allow. -/
theorem takes_elementValue {v : ElementValue} (h : v.Fits) {depth : Nat}
    (hdepth : v.encode.length ≤ depth) (offset : Nat) :
    (elementValue depth).Takes offset v.encode v := by
  induction h generalizing depth offset with
  | @const tag value htag =>
    obtain ⟨depth, rfl⟩ := ElementValue.exists_depth hdepth
    rw [elementValue_succ]
    refine (takes_u1 tag offset).bind ?_
    rw [elementValueOf, if_pos htag]
    exact takes_one_iff.2 ⟨value, rfl, rfl⟩
  | enumConst type name =>
    obtain ⟨depth, rfl⟩ := ElementValue.exists_depth hdepth
    exact (takes_u1 0x65 offset).bind (takes_two_iff.2 ⟨type, name, rfl, rfl⟩)
  | classInfo descriptor =>
    obtain ⟨depth, rfl⟩ := ElementValue.exists_depth hdepth
    exact (takes_u1 0x63 offset).bind (takes_one_iff.2 ⟨descriptor, rfl, rfl⟩)
  | @nested type elements hcount helements ih =>
    obtain ⟨depth, rfl⟩ := ElementValue.exists_depth hdepth
    have hencode := ElementValue.encode_nested ⟨type, elements⟩
    rw [hencode, List.length_cons] at hdepth
    have hread : (annotationOf (elementValue depth)).Takes (offset + 1) _ ⟨type, elements⟩ :=
      takes_annotationOf hcount (fun e he => ih e he
        (Nat.le_trans (length_value_le he) (Nat.le_of_succ_le_succ hdepth))) (offset + 1)
    have hmap := hread.map fun a => ElementValue.nested a.type a.elements
    rw [hencode]
    exact (takes_u1 0x40 offset).bind hmap
  | @array values hcount hvalues ih =>
    obtain ⟨depth, rfl⟩ := ElementValue.exists_depth hdepth
    rw [ElementValue.encode_array, List.length_cons] at hdepth
    have hread : (counted (elementValue depth)).Takes (offset + 1)
        (encodeTable ElementValue.encode values) values := by
      refine takes_encodeTable hcount (fun v hv => ih v hv ?_) (offset + 1)
      exact Nat.le_trans (Nat.le_of_lt (length_lt_encodeTable hv)) (Nat.le_of_succ_le_succ hdepth)
    have hmap := hread.map ElementValue.array
    rw [ElementValue.encode_array]
    exact (takes_u1 0x5B offset).bind hmap

/-- **Written annotations** are read back. -/
theorem takes_annotations {list : List Annotation} (hcount : list.length < 65536)
    (h : ∀ a ∈ list, a.Fits) (offset : Nat) :
    annotations.Takes offset (encodeTable Annotation.encode list) list := by
  have hone (depth : Nat) (hdepth : (encodeTable Annotation.encode list).length ≤ depth)
      (a : Annotation) (ha : a ∈ list) (offset : Nat) :
      (annotationOf (elementValue depth)).Takes offset a.encode a := by
    obtain ⟨hcount, helements⟩ := h a ha
    refine takes_annotationOf hcount (fun e he => takes_elementValue (helements e he) ?_) offset
    have hle := length_value_le he
    have hlt : a.encode.length < _ := length_lt_encodeTable ha
    omega
  intro rest
  exact takes_encodeTable hcount (hone (encodeTable Annotation.encode list ++ rest).length (by simp))
    offset rest

end Reader

end AdviceWeaver

import AdviceWeaver.Proofs.ClassFile.Attributes
import AdviceWeaver.Proofs.ClassFile.WrittenAnnotations

/-!
# Written attributes

Attributes as they are to be written (`AttributeForm`), which know no places yet, and what is read of
them at a place (`AttributeForm.placed`). Bodies hold attributes again, nested to any depth. Octets may
stand behind what is read of a content; an attribute that is not looked into consists of such octets.

## Main results

* `Reader.takes_attributeForm`, `Reader.takes_attributeForms` — written attributes are read back.
* `AttributeForm.Spans.of_hasAt` — their spans cut out what was written.
-/

namespace AdviceWeaver

/-! ### Items in a row -/

section Items

variable {α β : Type}

/-- What is read of items that are written in a row from `offset` on. -/
def placeEach (encode : α → Bytes) (place : Nat → α → β) (offset : Nat) : List α → List β
  | [] => []
  | a :: rest => place offset a :: placeEach encode place (offset + (encode a).length) rest

variable {encode : α → Bytes} {place : Nat → α → β} {R : Reader β} {items : List α}

/-- As many items are placed as there are. -/
theorem length_placeEach (offset : Nat) :
    (placeEach encode place offset items).length = items.length := by
  induction items generalizing offset with
  | nil => rfl
  | cons a rest ih => rw [placeEach, List.length_cons, List.length_cons, ih]

/-- Items that are read wherever they stand are read in a row. -/
theorem Reader.takesEach_place
    (h : ∀ a ∈ items, ∀ offset, R.Takes offset (encode a) (place offset a)) (offset : Nat) :
    R.TakesEach offset (items.flatMap encode) (placeEach encode place offset items) := by
  induction items generalizing offset with
  | nil => rfl
  | cons a rest ih =>
    exact ⟨encode a, rest.flatMap encode, rfl, h a List.mem_cons_self offset,
      ih (fun b hb => h b (List.mem_cons_of_mem a hb)) _⟩

/-- **A written table** is read back, each of its entries where it stands. -/
theorem Reader.takes_place (hdefinite : R.Definite) (hcount : items.length < 65536)
    (h : ∀ a ∈ items, ∀ offset, R.Takes offset (encode a) (place offset a)) (offset : Nat) :
    (counted R).Takes offset (encodeTable encode items)
      (placeEach encode place (offset + 2) items) := by
  rw [takes_counted_iff hdefinite, length_placeEach]
  exact ⟨hcount, _, rfl, takesEach_place h _⟩

/-- What holds of items where they were written holds of items in a row. -/
theorem forall₂_placeEach {file : Bytes} {S : α → β → Prop}
    (h : ∀ a ∈ items, ∀ offset, file.HasAt offset (encode a) → S a (place offset a)) {offset : Nat}
    (hat : file.HasAt offset (items.flatMap encode)) :
    List.Forall₂ S items (placeEach encode place offset items) := by
  induction items generalizing offset with
  | nil => exact .nil
  | cons a rest ih =>
    rw [List.flatMap_cons] at hat
    exact .cons (h a List.mem_cons_self offset hat.left)
      (ih (fun b hb => h b (List.mem_cons_of_mem a hb)) hat.right)

end Items

/-! ### The form of attributes -/

/-- An attribute as it is to be written: its name, its content, and octets behind what is read of it. -/
structure AttributeForm where
  name : UInt16
  content : ContentOf AttributeForm
  unread : Bytes

/-- The names of the attributes that are looked into, or at least told apart. -/
def knownTitles : List String :=
  ["Code", "StackMapTable", "LineNumberTable", "LocalVariableTable", "LocalVariableTypeTable",
    "RuntimeVisibleAnnotations", "RuntimeInvisibleAnnotations", "RuntimeVisibleTypeAnnotations",
    "RuntimeInvisibleTypeAnnotations", "Signature", "SourceFile"]

/-- What an attribute of this content is called. -/
def ContentOf.title {α : Type} : ContentOf α → String
  | .code _ => "Code"
  | .stackMapTable _ => "StackMapTable"
  | .lineNumberTable _ => "LineNumberTable"
  | .localVariableTable _ => "LocalVariableTable"
  | .localVariableTypeTable _ => "LocalVariableTypeTable"
  | .visibleAnnotations _ => "RuntimeVisibleAnnotations"
  | .invisibleAnnotations _ => "RuntimeInvisibleAnnotations"
  | .visibleTypeAnnotations => "RuntimeVisibleTypeAnnotations"
  | .invisibleTypeAnnotations => "RuntimeInvisibleTypeAnnotations"
  | .signature _ => "Signature"
  | .sourceFile _ => "SourceFile"
  | .other name => name

namespace AttributeForm

mutual

/-- The form of an attribute. -/
def encode : AttributeForm → Bytes
  | ⟨name, content, unread⟩ => encodeAttribute name (encodeContent content ++ unread)

/-- The form of a content, as far as it is read. -/
def encodeContent : ContentOf AttributeForm → Bytes
  | .code body => encodeBody body
  | .stackMapTable frames => encodeTable StackFrame.encode frames
  | .lineNumberTable entries => encodeTable LineEntry.encode entries
  | .localVariableTable entries => encodeTable VariableEntry.encode entries
  | .localVariableTypeTable entries => encodeTable VariableEntry.encode entries
  | .visibleAnnotations annotations => encodeTable Annotation.encode annotations
  | .invisibleAnnotations annotations => encodeTable Annotation.encode annotations
  | .visibleTypeAnnotations => []
  | .invisibleTypeAnnotations => []
  | .signature index => Bytes.ofUInt16 index
  | .sourceFile index => Bytes.ofUInt16 index
  | .other _ => []

/-- The form of a method body. -/
def encodeBody : CodeOf AttributeForm → Bytes
  | ⟨maxStack, maxLocals, code, handlers, attributes⟩ =>
    CodeOf.front ⟨maxStack, maxLocals, code, handlers, attributes⟩
      ++ (Bytes.ofUInt16 (UInt16.ofNat attributes.length) ++ encodeEach attributes)

/-- The forms of attributes in a row. -/
def encodeEach : List AttributeForm → Bytes
  | [] => []
  | a :: rest => a.encode ++ encodeEach rest

end

mutual

/-- What is read of an attribute that is written at `offset`. -/
def placed (offset : Nat) : AttributeForm → Attribute
  | ⟨name, content, unread⟩ =>
    ⟨name, ⟨offset, offset + (encode ⟨name, content, unread⟩).length⟩,
      placedContent (offset + 6) content⟩

/-- What is read of a content that is written at `offset`. -/
def placedContent (offset : Nat) : ContentOf AttributeForm → Content
  | .code body => .code (placedBody offset body)
  | .stackMapTable frames => .stackMapTable frames
  | .lineNumberTable entries => .lineNumberTable entries
  | .localVariableTable entries => .localVariableTable entries
  | .localVariableTypeTable entries => .localVariableTypeTable entries
  | .visibleAnnotations annotations => .visibleAnnotations annotations
  | .invisibleAnnotations annotations => .invisibleAnnotations annotations
  | .visibleTypeAnnotations => .visibleTypeAnnotations
  | .invisibleTypeAnnotations => .invisibleTypeAnnotations
  | .signature index => .signature index
  | .sourceFile index => .sourceFile index
  | .other name => .other name

/-- What is read of a method body that is written at `offset`. -/
def placedBody (offset : Nat) : CodeOf AttributeForm → Code
  | ⟨maxStack, maxLocals, code, handlers, attributes⟩ =>
    ⟨maxStack, maxLocals, code, handlers,
      placedAll (offset + (CodeOf.front ⟨maxStack, maxLocals, code, handlers, attributes⟩).length + 2)
        attributes⟩

/-- What is read of attributes that are written in a row from `offset` on. -/
def placedAll (offset : Nat) : List AttributeForm → List Attribute
  | [] => []
  | a :: rest => a.placed offset :: placedAll (offset + a.encode.length) rest

end

/-- An attribute takes six octets more than its content and what follows unread. -/
theorem length_encode (a : AttributeForm) :
    a.encode.length = 6 + (encodeContent a.content).length + a.unread.length := by
  cases a
  rw [encode, encodeAttribute]
  simp only [List.length_append, Bytes.length_ofUInt16, Bytes.length_ofUInt32]
  omega

/-- Attributes are written one after the other. -/
theorem encodeEach_eq (list : List AttributeForm) : encodeEach list = list.flatMap encode := by
  induction list with
  | nil => rfl
  | cons a rest ih =>
    rw [encodeEach, ih]
    rfl

/-- Attributes are placed one after the other. -/
theorem placedAll_eq (offset : Nat) (list : List AttributeForm) :
    placedAll offset list = placeEach encode placed offset list := by
  induction list generalizing offset with
  | nil => rfl
  | cons a rest ih => rw [placedAll, ih, placeEach]

/-- The content of a code attribute is the front of the body and a table of attributes. -/
theorem encodeContent_code (body : CodeOf AttributeForm) :
    encodeContent (.code body) = body.front ++ encodeTable encode body.attributes := by
  rw [encodeContent, encodeBody, encodeEach_eq]
  rfl

/-- The attributes of a body are placed behind its front and their count. -/
theorem placedContent_code (offset : Nat) (body : CodeOf AttributeForm) :
    placedContent offset (.code body) = .code
      { body with
        attributes := placeEach encode placed (offset + body.front.length + 2) body.attributes } := by
  rw [placedContent, placedBody, placedAll_eq]

/-! ### What can be written -/

/-- Whether a content that holds no attributes can be written: its lists are told by 16 bits, and a
content that is not looked into is not called like one that is. -/
def FitsFlat {α : Type} : ContentOf α → Prop
  | .code _ => False
  | .stackMapTable frames => frames.length < 65536 ∧ ∀ f ∈ frames, f.Writable
  | .lineNumberTable entries => entries.length < 65536
  | .localVariableTable entries | .localVariableTypeTable entries => entries.length < 65536
  | .visibleAnnotations annotations | .invisibleAnnotations annotations =>
    annotations.length < 65536 ∧ ∀ a ∈ annotations, a.Fits
  | .visibleTypeAnnotations | .invisibleTypeAnnotations | .signature _ | .sourceFile _ => True
  | .other name => name ∉ knownTitles

/-- Whether an attribute can be written into a class file with this constant pool: its name is there,
its length is told by 32 bits, and a body has 1 to 65535 octets of code and attributes that can be
written. -/
inductive Fits (pool : ConstantPool) : AttributeForm → Prop
  | code {name : UInt16} {body : CodeOf AttributeForm} {unread : Bytes}
      (hname : pool.getText name = .ok "Code")
      (hlength : (encodeContent (.code body) ++ unread).length < 4294967296)
      (hne : body.code ≠ []) (hle : body.code.length ≤ 65535)
      (hhandlers : body.handlers.length < 65536) (hcount : body.attributes.length < 65536)
      (hattributes : ∀ a ∈ body.attributes, Fits pool a) : Fits pool ⟨name, .code body, unread⟩
  | flat {name : UInt16} {content : ContentOf AttributeForm} {unread : Bytes}
      (hname : pool.getText name = .ok content.title)
      (hlength : (encodeContent content ++ unread).length < 4294967296) (hflat : FitsFlat content) :
      Fits pool ⟨name, content, unread⟩

end AttributeForm

/-! ### Reading it back -/

namespace Reader

open AttributeForm

variable {pool : ConstantPool} {depth : Nat}

/-- An attribute whose name is none of the known ones is not looked into. -/
theorem content_other {name : String} (h : name ∉ knownTitles) (nested : Reader (List Attribute)) :
    content nested name = pure (.other name) := by
  unfold content
  split
  case h_12 => rfl
  all_goals exact absurd (by decide) h

/-- A written content that holds no attributes is read back. -/
theorem takes_flat {c : ContentOf AttributeForm} (h : FitsFlat c) (nested : Reader (List Attribute))
    (offset : Nat) :
    (content nested c.title).Takes offset (encodeContent c) (placedContent offset c) := by
  cases c with
  | code body => exact h.elim
  | stackMapTable frames =>
    exact (takes_encodeTable h.1 (fun f hf => takes_stackFrame (h.2 f hf)) offset).map _
  | lineNumberTable entries =>
    exact (takes_encodeTable h (fun e _ => takes_lineEntry e) offset).map _
  | localVariableTable entries =>
    exact (takes_encodeTable h (fun e _ => takes_variableEntry e) offset).map _
  | localVariableTypeTable entries =>
    exact (takes_encodeTable h (fun e _ => takes_variableEntry e) offset).map _
  | visibleAnnotations annotations => exact (takes_annotations h.1 h.2 offset).map _
  | invisibleAnnotations annotations => exact (takes_annotations h.1 h.2 offset).map _
  | visibleTypeAnnotations => exact takes_pure _ offset
  | invisibleTypeAnnotations => exact takes_pure _ offset
  | signature index => exact (takes_u2 index offset).map _
  | sourceFile index => exact (takes_u2 index offset).map _
  | other name =>
    rw [ContentOf.title, content_other h]
    exact takes_pure _ offset

/-- **A written attribute** is read back at every depth that its octets allow. -/
theorem takes_attributeForm {a : AttributeForm} (h : a.Fits pool) (hdepth : a.encode.length ≤ depth)
    (offset : Nat) :
    (attributeEntry pool (attributes pool depth)).Takes offset a.encode (a.placed offset) := by
  induction h generalizing depth offset with
  | @code name body unread hname hlength hne hle hhandlers hcount hattributes ih =>
    rw [length_encode, encodeContent_code, List.length_append] at hdepth
    -- the header takes octets, so a level of depth is left for the nested attributes
    obtain ⟨depth, rfl⟩ : ∃ n, depth = n + 1 := Nat.exists_eq_add_one.2 (by omega)
    have hnested (offset : Nat) : (attributes pool (depth + 1)).Takes offset
        (encodeTable encode body.attributes)
        (placeEach encode placed (offset + 2) body.attributes) := by
      refine takes_place (definite_attributeEntry pool _) hcount (fun b hb => ih b hb ?_) offset
      have hlt : b.encode.length < _ := length_lt_encodeTable hb
      omega
    have hcontent : (content (attributes pool (depth + 1)) "Code").Takes (offset + 6)
        (encodeContent (.code body)) (placedContent (offset + 6) (.code body)) := by
      rw [encodeContent_code, placedContent_code, content_code]
      exact (takes_code hne hle hhandlers (hnested _)).map _
    exact takes_encodeAttribute hlength hname rfl hcontent
  | @flat name content unread hname hlength hflat =>
    exact takes_encodeAttribute hlength hname rfl (takes_flat hflat _ _)

/-- **Written attributes** in a table are read back. -/
theorem takes_attributeForms {list : List AttributeForm} (hcount : list.length < 65536)
    (h : ∀ a ∈ list, a.Fits pool) (hdepth : (encodeTable encode list).length ≤ depth) (offset : Nat) :
    (attributes pool depth).Takes offset (encodeTable encode list)
      (placeEach encode placed (offset + 2) list) := by
  obtain ⟨depth, rfl⟩ : ∃ n, depth = n + 1 := by
    rw [encodeTable, List.length_append, Bytes.length_ofUInt16] at hdepth
    exact Nat.exists_eq_add_one.2 (by omega)
  refine takes_place (definite_attributeEntry pool _) hcount
    (fun a ha => takes_attributeForm (h a ha) ?_) offset
  have hlt : a.encode.length < _ := length_lt_encodeTable ha
  omega

end Reader

/-! ### What spans cut out -/

/-- The spans of an attribute and of those nested in it cut out of a file what was written. -/
inductive AttributeForm.Spans (file : Bytes) : AttributeForm → Attribute → Prop
  | code {a : AttributeForm} {b : Attribute} {body : CodeOf AttributeForm} {body' : Code}
      (ha : a.content = .code body) (hb : b.content = .code body')
      (hspan : file.slice? b.span.start b.span.stop = some a.encode)
      (hnested : List.Forall₂ (Spans file) body.attributes body'.attributes) : Spans file a b
  | flat {a : AttributeForm} {b : Attribute} (ha : ∀ body, a.content ≠ .code body)
      (hspan : file.slice? b.span.start b.span.stop = some a.encode) : Spans file a b

namespace AttributeForm

variable {file : Bytes} {pool : ConstantPool}

/-- **Where an attribute was written,** there its span is. -/
theorem Spans.of_hasAt {a : AttributeForm} (h : a.Fits pool) {offset : Nat}
    (hat : file.HasAt offset a.encode) : Spans file a (a.placed offset) := by
  induction h generalizing offset with
  | @code name body unread hname hlength hne hle hhandlers hcount hattributes ih =>
    refine .code rfl (placedContent_code _ body) hat.slice?_eq ?_
    refine forall₂_placeEach (fun b hb offset hb' => ih b hb hb') ?_
    rw [encode, encodeAttribute, encodeContent_code, encodeTable] at hat
    exact hat.right.left.right.right
  | @flat name content unread hname hlength hflat =>
    refine .flat (fun body hbody => ?_) hat.slice?_eq
    subst hbody
    exact hflat

end AttributeForm

end AdviceWeaver

import AdviceWeaver.Proofs.ClassFile.Members

/-!
# The bodies of a class

A class holds method bodies in code attributes, which stand among the attributes of its methods, among
its own, or among those of another body (`ClassFile.HasBody`). Whatever such a body carries was read
from the place of the class file that its span tells (`Attribute.ReadFrom`), so it can be cut out from
there, and its tables are of the kind that can be written.

## Main results

* `ClassFile.readFrom_of_hasAttribute` — the attributes of a class that was read, at any depth.
* `Attribute.ReadFrom.exists_slice` — an attribute that was read can be cut out.
-/

namespace AdviceWeaver

/-- The attribute is one of `attributes`, or belongs to a body that one of these holds, at any
depth. -/
inductive Attribute.Among (attributes : List Attribute) : Attribute → Prop
  | here {a : Attribute} : a ∈ attributes → Among attributes a
  | inside {a b : Attribute} {body : Code} :
    Among attributes a → a.content = .code body → b ∈ body.attributes → Among attributes b

/-- The class holds the attribute: as one of a method or of its own, or in a body that it holds. -/
def ClassFile.HasAttribute (c : ClassFile) (a : Attribute) : Prop :=
  (∃ m ∈ c.methods, Attribute.Among m.attributes a) ∨ Attribute.Among c.attributes a

/-- The class holds the body: in an attribute of a method or of the class, or in a body that it
holds. -/
def ClassFile.HasBody (c : ClassFile) (body : Code) : Prop :=
  ∃ a : Attribute, a.content = .code body
    ∧ ((∃ m ∈ c.methods, Attribute.Among m.attributes a) ∨ Attribute.Among c.attributes a)

/-- The body of a method is one of its class. -/
theorem ClassFile.hasBody_of_code? {c : ClassFile} {m : MethodInfo} {a : Attribute} {body : Code}
    (hm : m ∈ c.methods) (h : m.code? = some (a, body)) : c.HasBody body := by
  obtain ⟨b, hb, hbody⟩ := List.exists_of_findSome?_eq_some h
  split at hbody
  · next hcontent =>
    cases hbody
    exact ⟨a, hcontent, .inl ⟨m, hm, .here hb⟩⟩
  · cases hbody

/-- The attribute was read from octets of the class file, names being those of `pool`. -/
def Attribute.ReadFrom (bytes : Bytes) (pool : ConstantPool) (a : Attribute) : Prop :=
  ∃ depth offset octets, bytes.HasAt offset octets
    ∧ (Reader.attributeEntry pool (Reader.attributes pool depth)).Takes offset octets a

variable {bytes : Bytes} {pool : ConstantPool} {a b : Attribute} {body : Code}

/-- Attributes that were read in a row were read each from its own place. -/
theorem Reader.readFrom_of_takes {depth offset : Nat} {octets : Bytes} {list : List Attribute}
    (h : (attributes pool depth).Takes offset octets list) (hat : bytes.HasAt offset octets) :
    ∀ a ∈ list, a.ReadFrom bytes pool := by
  cases depth with
  | zero => exact (takes_throw_iff.1 h).elim
  | succ depth =>
    obtain ⟨-, each, rfl, heach⟩ := (takes_counted_iff (definite_attributeEntry pool _)).1 h
    intro a ha
    obtain ⟨offset', part, hpart, htakes⟩ := heach.hasAt_of_mem hat.right ha
    exact ⟨depth, offset', part, hpart, htakes⟩

/-- A content that is a table of frames was read by the reader of such tables. -/
theorem Reader.frames_of_takes {nested : Reader (List Attribute)} {text : String} {offset : Nat}
    {octets : Bytes} {frames : List StackFrame} (hnested : nested.Definite)
    (h : (content nested text).Takes offset octets (.stackMapTable frames)) :
    ∃ table, (counted stackFrame).Takes offset table frames := by
  unfold content at h
  split at h
  · obtain ⟨_, -, hne⟩ := (definite_code hnested).takes_map_iff.1 h
    cases hne
  · obtain ⟨_, htable, heq⟩ := plain_stackFrame.counted.definite.takes_map_iff.1 h
    cases heq
    exact ⟨octets, htable⟩
  · obtain ⟨_, -, hne⟩ := plain_lineEntry.counted.definite.takes_map_iff.1 h
    cases hne
  · obtain ⟨_, -, hne⟩ := plain_variableEntry.counted.definite.takes_map_iff.1 h
    cases hne
  · obtain ⟨_, -, hne⟩ := plain_variableEntry.counted.definite.takes_map_iff.1 h
    cases hne
  · obtain ⟨_, -, hne⟩ := plain_annotations.definite.takes_map_iff.1 h
    cases hne
  · obtain ⟨_, -, hne⟩ := plain_annotations.definite.takes_map_iff.1 h
    cases hne
  · cases (takes_pure_iff.1 h).2
  · cases (takes_pure_iff.1 h).2
  · obtain ⟨_, -, hne⟩ := definite_u2.takes_map_iff.1 h
    cases hne
  · obtain ⟨_, -, hne⟩ := definite_u2.takes_map_iff.1 h
    cases hne
  · cases (takes_pure_iff.1 h).2

namespace Attribute

/-- The attributes of a body were read from inside of the attribute that holds it. -/
theorem ReadFrom.inside (h : a.ReadFrom bytes pool) (hbody : a.content = .code body)
    (hb : b ∈ body.attributes) : b.ReadFrom bytes pool := by
  obtain ⟨depth, offset, octets, hat, htakes⟩ := h
  obtain ⟨front, rest, rfl, -, hcode⟩ :=
    Reader.code_of_takes (Reader.definite_attributes pool depth) htakes hbody
  obtain ⟨each, rfl, -, -, -, hnested⟩ :=
    (Reader.takes_code_iff (Reader.definite_attributes pool depth)).1 hcode
  exact Reader.readFrom_of_takes hnested hat.right.left.right b hb

/-- An attribute inside others was read if they were. -/
theorem Among.readFrom {attributes : List Attribute} (h : Among attributes a)
    (hread : ∀ b ∈ attributes, b.ReadFrom bytes pool) : a.ReadFrom bytes pool := by
  induction h with
  | here ha => exact hread _ ha
  | inside _ hbody hb ih => exact ih.inside hbody hb

/-- **An attribute that was read** can be cut out at its span. -/
theorem ReadFrom.exists_slice (h : a.ReadFrom bytes pool) :
    ∃ octets, bytes.HasAt a.span.start octets
      ∧ bytes.slice? a.span.start a.span.stop = some octets := by
  obtain ⟨depth, offset, octets, hat, htakes⟩ := h
  obtain ⟨-, -, -, -, -, -, hspan, -⟩ := Reader.takes_attributeEntry_iff.1 htakes
  rw [hspan]
  exact ⟨octets, hat, hat.slice?_eq⟩

/-- The content of an attribute was read by the reader for its name. -/
theorem ReadFrom.exists_content (h : a.ReadFrom bytes pool) :
    ∃ depth text offset octets,
      (Reader.content (Reader.attributes pool depth) text).Takes offset octets a.content := by
  obtain ⟨depth, offset, octets, -, htakes⟩ := h
  obtain ⟨inside, text, rest, -, -, -, -, hread⟩ := Reader.takes_attributeEntry_iff.1 htakes
  obtain ⟨front, -, -, hcontent⟩ :=
    Reader.definite_content (Reader.definite_attributes pool depth) text _ _ _ hread
  exact ⟨depth, text, _, front, hcontent⟩

/-- The frames of a table that was read are as many as can be counted, and of kinds that can be
written. -/
theorem ReadFrom.writable {frames : List StackFrame} (h : a.ReadFrom bytes pool)
    (hframes : a.content = .stackMapTable frames) :
    frames.length < 65536 ∧ ∀ frame ∈ frames, frame.Writable := by
  obtain ⟨depth, text, offset, octets, hcontent⟩ := h.exists_content
  rw [hframes] at hcontent
  obtain ⟨table, htable⟩ := Reader.frames_of_takes (Reader.definite_attributes pool depth) hcontent
  obtain ⟨hcount, each, -, heach⟩ :=
    (Reader.takes_counted_iff Reader.plain_stackFrame.definite).1 htable
  exact ⟨hcount, Reader.writable_of_takesEach heach⟩

end Attribute

/-- **An attribute** that a class holds, at any depth, was read from the class file. -/
theorem ClassFile.readFrom_of_hasAttribute {c : ClassFile} (hread : ClassFile.read bytes = .ok c)
    (ha : c.HasAttribute a) : a.ReadFrom bytes c.pool := by
  obtain ⟨count, pool, rest, trailing, heq, hpoolEnd, -, hmembers, -⟩ := ClassFile.of_read hread
  have hat : bytes.HasAt c.poolEnd rest :=
    ⟨c.head ++ (Bytes.ofUInt16 count ++ pool), trailing, by simp [heq], by simp [hpoolEnd]; omega⟩
  obtain ⟨interfaces, fields, _, each, _, rfl, -, -, htable, hown, -⟩ :=
    Reader.takes_members_iff.1 hmembers
  obtain ⟨-, methods, rfl, hmethods⟩ :=
    (Reader.takes_counted_iff (Reader.definite_method c.pool _)).1 htable
  have hatMethods := hat.right.right.right.left.right
  have hatOwn := hat.right.right.right.right
  obtain ⟨m, hm, hamong⟩ | hamong := ha
  · have hmethod : ∀ d ∈ m.attributes, d.ReadFrom bytes c.pool := by
      obtain ⟨offset, part, hpart, htakes⟩ := hmethods.hasAt_of_mem hatMethods hm
      obtain ⟨list, rfl, hlist⟩ := Reader.takes_method_iff.1 htakes
      exact Reader.readFrom_of_takes hlist hpart.right
    exact hamong.readFrom hmethod
  · exact hamong.readFrom (Reader.readFrom_of_takes hown hatOwn)

/-- **What a body carries** was read from the class file. -/
theorem ClassFile.readFrom_of_hasBody {c : ClassFile} (hread : ClassFile.read bytes = .ok c)
    (hbody : c.HasBody body) : ∀ b ∈ body.attributes, b.ReadFrom bytes c.pool := by
  obtain ⟨a, ha, hin⟩ := hbody
  exact fun b => (ClassFile.readFrom_of_hasAttribute hread hin).inside ha

/-! ### Bodies of given classes -/

/-- Whether the octets are those of a class with a method whose body passes a test. -/
def ClassFile.anyBody (bytes : Bytes) (test : Code → Bool) : Bool :=
  match ClassFile.read bytes with
  | .ok c => c.methods.any fun m => m.code?.any fun p => test p.2
  | .error _ => false

/-- A check that holds of some body tells the class that was read and the body. -/
theorem ClassFile.exists_of_anyBody {test : Code → Bool} (h : anyBody bytes test = true) :
    ∃ (c : ClassFile) (body : Code),
      ClassFile.read bytes = .ok c ∧ c.HasBody body ∧ test body = true := by
  unfold anyBody at h
  split at h
  · next c hread =>
    obtain ⟨m, hm, htest⟩ := List.any_eq_true.1 h
    obtain ⟨⟨a, body⟩, hcode, htest⟩ := (Option.any_eq_true ..).1 htest
    exact ⟨c, body, hread, hasBody_of_code? hm hcode, htest⟩
  · cases h

/-- A class `A` with one static method `m`, which selects by its argument whether to return or to make
an object before; the switch is protected. Its body has stack map frames, line numbers and a local
variable. -/
def ClassFile.selecting : Bytes :=
  [0xCA, 0xFE, 0xBA, 0xBE, 0, 0, 0, 0x34, 0, 9]
    ++ [1, 0, 1, 0x41, 7, 0, 1, 1, 0, 1, 0x6D, 1, 0, 4, 0x28, 0x49, 0x29, 0x56]
    ++ [1, 0, 4, 0x43, 0x6F, 0x64, 0x65]
    ++ [1, 0, 13, 0x53, 0x74, 0x61, 0x63, 0x6B, 0x4D, 0x61, 0x70, 0x54, 0x61, 0x62, 0x6C, 0x65]
    ++ [1, 0, 15, 0x4C, 0x69, 0x6E, 0x65, 0x4E, 0x75, 0x6D, 0x62, 0x65, 0x72, 0x54, 0x61, 0x62,
      0x6C, 0x65]
    ++ [1, 0, 18, 0x4C, 0x6F, 0x63, 0x61, 0x6C, 0x56, 0x61, 0x72, 0x69, 0x61, 0x62, 0x6C, 0x65,
      0x54, 0x61, 0x62, 0x6C, 0x65]
    ++ [0, 0x21, 0, 2, 0, 0, 0, 0, 0, 0, 0, 1, 0, 9, 0, 3, 0, 4, 0, 1]
    ++ [0, 5, 0, 0, 0, 103, 0, 2, 0, 2, 0, 0, 0, 26]
    ++ [0x1A, 0xAA, 7, 9, 0, 0, 0, 19, 0, 0, 0, 0, 0, 0, 0, 0, 0, 0, 0, 20]
    ++ [0xB1, 0xBB, 0, 2, 0x4C, 0xB1]
    ++ [0, 1, 0, 0, 0, 20, 0, 21, 0, 0, 0, 3]
    ++ [0, 6, 0, 0, 0, 13, 0, 3, 20, 64, 7, 0, 2, 252, 0, 3, 8, 0, 21]
    ++ [0, 7, 0, 0, 0, 14, 0, 3, 0, 0, 0, 10, 0, 20, 0, 11, 0, 21, 0, 12]
    ++ [0, 8, 0, 0, 0, 12, 0, 1, 0, 0, 0, 26, 0, 3, 0, 3, 0, 0]
    ++ [0, 0]

end AdviceWeaver

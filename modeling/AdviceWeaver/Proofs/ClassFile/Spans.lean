import AdviceWeaver.Proofs.ClassFile.Bodies

/-!
# The spans of a class

Every attribute of a class keeps the span that it was read from. The spans of the methods'
attributes and of the class's own follow one another behind the constant pool, and at every one of
them the class file has what is written of an attribute (`Attribute.StandsIn`). The attributes of a
body lie in the content of the attribute that holds the body, behind its code and its exception
table (`Attribute.Encloses`), and so on downwards. So a class file may be cut at any of these
spans.

## Main results

* `Reader.ascend_of_takesEach` — items that were read in a row have spans in a row.
* `ClassFile.spans_of_read` — the spans of a class that was read.
-/

namespace AdviceWeaver

/-! ### Spans in a row -/

/-- The spans lie between `low` and `high`, none of them is empty, and each ends before the next one
starts. -/
structure Span.Ascend (low high : Nat) (spans : List Span) : Prop where
  inside : ∀ s ∈ spans, low ≤ s.start ∧ s.start < s.stop ∧ s.stop ≤ high
  apart : spans.Pairwise fun s t => s.stop ≤ t.start

namespace Span.Ascend

variable {low middle high : Nat} {spans spans' : List Span}

theorem nil : Ascend low high [] :=
  ⟨nofun, .nil⟩

/-- A span that is not empty ascends between bounds around it. -/
theorem singleton {s : Span} (hlow : low ≤ s.start) (hne : s.start < s.stop)
    (hhigh : s.stop ≤ high) : Ascend low high [s] :=
  ⟨List.forall_mem_singleton.2 ⟨hlow, hne, hhigh⟩, List.pairwise_singleton ..⟩

/-- Spans that ascend between two bounds ascend between wider ones. -/
theorem mono {low' high' : Nat} (h : Ascend low high spans) (hlow : low' ≤ low)
    (hhigh : high ≤ high') : Ascend low' high' spans where
  inside s hs := by
    obtain ⟨hstart, hne, hstop⟩ := h.inside s hs
    exact ⟨Nat.le_trans hlow hstart, hne, Nat.le_trans hstop hhigh⟩
  apart := h.apart

/-- Rows on both sides of an offset are a row. -/
theorem append (h : Ascend low middle spans) (h' : Ascend middle high spans')
    (hlow : low ≤ middle) (hhigh : middle ≤ high) : Ascend low high (spans ++ spans') where
  inside := List.forall_mem_append.2
    ⟨(h.mono (Nat.le_refl _) hhigh).inside, (h'.mono hlow (Nat.le_refl _)).inside⟩
  apart := List.pairwise_append.2 ⟨h.apart, h'.apart, fun s hs t ht =>
    Nat.le_trans (h.inside s hs).2.2 (h'.inside t ht).1⟩

end Span.Ascend

namespace Reader

variable {α : Type} {R : Reader α} {offset : Nat} {octets : Bytes}

/-- **Items that were read in a row** have spans in a row. -/
theorem ascend_of_takesEach {spans : α → List Span} {items : List α}
    (hR : ∀ offset octets a, R.Takes offset octets a →
      Span.Ascend offset (offset + octets.length) (spans a))
    (h : R.TakesEach offset octets items) :
    Span.Ascend offset (offset + octets.length) (items.flatMap spans) := by
  induction items generalizing offset octets with
  | nil => exact .nil
  | cons a rest ih =>
    obtain ⟨front, back, rfl, hfront, hback⟩ := h
    rw [List.flatMap_cons, List.length_append, ← Nat.add_assoc]
    exact (hR _ _ _ hfront).append (ih hback) (Nat.le_add_right ..) (Nat.le_add_right ..)

variable {pool : ConstantPool} {depth : Nat} {list : List Attribute}

/-- The attributes of a table were read in a row behind its count. -/
theorem ascend_of_takes_attributes (h : (attributes pool depth).Takes offset octets list) :
    Span.Ascend (offset + 2) (offset + octets.length) (list.map Attribute.span) := by
  cases depth with
  | zero => exact (takes_throw_iff.1 h).elim
  | succ depth =>
    obtain ⟨-, each, rfl, heach⟩ := (takes_counted_iff (definite_attributeEntry pool _)).1 h
    have hrow : Span.Ascend (offset + 2) (offset + 2 + each.length)
        (list.flatMap fun a => [a.span]) := by
      refine ascend_of_takesEach (fun offset octets a ha => ?_) heach
      obtain ⟨inside, -, -, rfl, -, -, hspan, -⟩ := takes_attributeEntry_iff.1 ha
      rw [hspan]
      refine .singleton (Nat.le_refl _) ?_ (Nat.le_refl _)
      simp only [encodeAttribute, List.length_append, Bytes.length_ofUInt16]
      omega
    rw [← List.map_eq_flatMap] at hrow
    rw [List.length_append, Bytes.length_ofUInt16, ← Nat.add_assoc]
    exact hrow

/-- The attributes of a method were read in a row inside of it. -/
theorem ascend_of_takes_method {m : MethodInfo} (h : (method pool depth).Takes offset octets m) :
    Span.Ascend offset (offset + octets.length) (m.attributes.map Attribute.span) := by
  obtain ⟨each, rfl, heach⟩ := takes_method_iff.1 h
  rw [List.length_append, MethodInfo.length_front, ← Nat.add_assoc]
  exact (ascend_of_takes_attributes heach).mono (by omega) (Nat.le_refl _)

end Reader

/-! ### What stands at a span -/

namespace Attribute

variable {bytes : Bytes} {pool : ConstantPool} {a : Attribute} {body : Code}

/-- At the span of the attribute stand its name, the length of its content, and that many octets. -/
def StandsIn (bytes : Bytes) (a : Attribute) : Prop :=
  ∃ (length : UInt32) (content : Bytes), content.length = length.toNat
    ∧ a.span.stop = a.span.start + 6 + content.length
    ∧ bytes.slice? a.span.start a.span.stop
      = some (Bytes.ofUInt16 a.name ++ Bytes.ofUInt32 length ++ content)

/-- The body lies in the content of the attribute: its code behind the eight octets of its limits
and its length, and the spans of its own attributes behind the code and the exception table. -/
structure Encloses (bytes : Bytes) (a : Attribute) (body : Code) : Prop where
  code : bytes.slice? (a.span.start + 6 + 8) (a.span.start + 6 + 8 + body.code.length)
    = some body.code
  spans : Span.Ascend (a.span.start + 6 + 8 + body.code.length + 2 + 8 * body.handlers.length + 2)
    a.span.stop (body.attributes.map span)

/-- **An attribute** stands where its span says, if it was read. -/
theorem ReadFrom.standsIn (h : a.ReadFrom bytes pool) : a.StandsIn bytes := by
  obtain ⟨depth, offset, octets, hat, htakes⟩ := h
  obtain ⟨inside, -, -, rfl, hlength, -, hspan, -⟩ := Reader.takes_attributeEntry_iff.1 htakes
  have hcount : (UInt32.ofNat inside.length).toNat = inside.length :=
    UInt32.toNat_ofNat_of_lt' hlength
  refine ⟨UInt32.ofNat inside.length, inside, hcount.symm, ?_, ?_⟩
  · rw [hspan]
    simp only [encodeAttribute, List.length_append, Bytes.length_ofUInt16, Bytes.length_ofUInt32]
    omega
  · rw [hspan]
    exact hat.slice?_eq

/-- **A code attribute** encloses its code and the attributes inside it. -/
theorem ReadFrom.encloses (h : a.ReadFrom bytes pool) (hbody : a.content = .code body) :
    a.Encloses bytes body := by
  obtain ⟨depth, offset, octets, hat, htakes⟩ := h
  have hnested := Reader.definite_attributes pool depth
  obtain ⟨-, -, -, -, -, -, hspan, -⟩ := Reader.takes_attributeEntry_iff.1 htakes
  obtain ⟨front, rest, rfl, -, hcode⟩ := Reader.code_of_takes hnested htakes hbody
  obtain ⟨each, rfl, -, -, -, hattributes⟩ := (Reader.takes_code_iff hnested).1 hcode
  have hstop : (encodeAttribute a.name (body.front ++ each ++ rest)).length
      = 6 + body.front.length + each.length + rest.length := by
    simp only [encodeAttribute, List.length_append, Bytes.length_ofUInt16, Bytes.length_ofUInt32]
    omega
  have hfront : bytes.HasAt (offset + 6) body.front := hat.right.left.left
  constructor
  · rw [hspan]
    exact hfront.left.right.slice?_eq
  · rw [hspan, hstop]
    have hrow := Reader.ascend_of_takes_attributes hattributes
    rw [CodeOf.length_front] at hrow ⊢
    exact hrow.mono (by dsimp only; omega) (by dsimp only; omega)

end Attribute

/-! ### Classes -/

/-- The attributes of the methods, in turn, and then those of the class. -/
def ClassFile.ownAttributes (c : ClassFile) : List Attribute :=
  c.methods.flatMap MethodInfo.attributes ++ c.attributes

/-- **The spans of a class that was read.** Behind the constant pool, the spans of the methods'
attributes and of the class's own are in a row. At the span of every attribute, at any depth, the
class file has the name, the length and the content; and if the attribute holds a body, then the
code stands in the content, and the spans of the body's attributes are in a row behind it, within
the content. -/
theorem ClassFile.spans_of_read {bytes : Bytes} {c : ClassFile} (h : ClassFile.read bytes = .ok c) :
    10 ≤ c.poolEnd ∧ c.poolEnd ≤ bytes.length
      ∧ Span.Ascend c.poolEnd bytes.length (c.ownAttributes.map Attribute.span)
      ∧ ∀ a, c.HasAttribute a → a.StandsIn bytes
        ∧ ∀ body, a.content = .code body → a.Encloses bytes body := by
  obtain ⟨count, pool, rest, trailing, heq, hpoolEnd, -, hmembers, -⟩ := ClassFile.of_read h
  have hlength : bytes.length = c.poolEnd + rest.length + trailing.length := by
    rw [heq, hpoolEnd]
    simp only [List.length_append, ClassFile.length_head, Bytes.length_ofUInt16]
    omega
  refine ⟨by omega, by omega, ?_, fun a ha => ?_⟩
  -- Methods are one run of items, the attributes of the class another one behind it.
  · obtain ⟨interfaces, fields, table, each, -, rfl, -, -, htable, hown, -⟩ :=
      Reader.takes_members_iff.1 hmembers
    obtain ⟨-, methods, rfl, hmethods⟩ :=
      (Reader.takes_counted_iff (Reader.definite_method c.pool _)).1 htable
    have hrow := Reader.ascend_of_takesEach (fun _ _ _ => Reader.ascend_of_takes_method) hmethods
    have hrow' := Reader.ascend_of_takes_attributes hown
    simp only [List.length_append, ClassFile.length_front, Bytes.length_ofUInt16] at hlength hrow'
    rw [ClassFile.ownAttributes, List.map_append, List.map_flatMap]
    exact (hrow.mono (by omega) (Nat.le_refl _)).append (hrow'.mono (by omega) (by omega))
      (by omega) (by omega)
  · have hread := ClassFile.readFrom_of_hasAttribute h ha
    exact ⟨hread.standsIn, fun _ => hread.encloses⟩

/-- A class with a body that carries three attributes, which all lie in the content of a fourth. -/
theorem ClassFile.spans_of_read_selecting :
    ∃ c a body, ClassFile.read ClassFile.selecting = .ok c
      ∧ Span.Ascend c.poolEnd ClassFile.selecting.length (c.ownAttributes.map Attribute.span)
      ∧ c.HasAttribute a ∧ a.content = .code body ∧ body.attributes.length = 3
      ∧ a.StandsIn ClassFile.selecting ∧ a.Encloses ClassFile.selecting body
      ∧ ∀ b ∈ body.attributes, b.StandsIn ClassFile.selecting := by
  have hany : ClassFile.anyBody ClassFile.selecting
      (fun body => body.attributes.length = 3) = true := by
    decide +kernel
  obtain ⟨c, body, hread, ⟨a, hcontent, hheld⟩, hthree⟩ := ClassFile.exists_of_anyBody hany
  obtain ⟨-, -, hrow, hall⟩ := ClassFile.spans_of_read hread
  have ha : c.HasAttribute a := hheld
  have hinside : ∀ b ∈ body.attributes, c.HasAttribute b := fun b hb =>
    hheld.imp (fun ⟨m, hm, hamong⟩ => ⟨m, hm, hamong.inside hcontent hb⟩)
      fun hamong => hamong.inside hcontent hb
  exact ⟨c, a, body, hread, hrow, ha, hcontent, of_decide_eq_true hthree, (hall a ha).1,
    (hall a ha).2 body hcontent, fun b hb => (hall b (hinside b hb)).1⟩

end AdviceWeaver

import AdviceWeaver.Proofs.ClassFile.CodeContent

/-!
# Attributes wherever they stand

An attribute is read from a name, a length and a content of that many octets, of which the reader
of the content may leave some. Nothing of it depends on where the attribute stands but the spans
that it and its nested attributes keep (`Attribute.Same`), and no more depth of nesting is needed
than there are octets.

## Main results

* `Reader.takes_attributeEntry_iff` — the octets of an attribute.
* `Reader.carries_attributes` — attributes that were read are read again, wherever they stand,
  from a pool that has the same texts and more.
-/

namespace AdviceWeaver

/-- Attributes that say the same, read from different places. -/
inductive Attribute.Same : Attribute → Attribute → Prop
  | code {name : UInt16} {span span' : Span} {body body' : Code} :
      { body with attributes := ([] : List Attribute) }
        = { body' with attributes := ([] : List Attribute) } →
      List.Forall₂ Same body.attributes body'.attributes →
      Same ⟨name, span, .code body⟩ ⟨name, span', .code body'⟩
  | other {name : UInt16} {span span' : Span} {content : Content} :
      (∀ body, content ≠ .code body) → Same ⟨name, span, content⟩ ⟨name, span', content⟩

/-- The number of octets that an attribute takes. -/
def Attribute.extent (a : Attribute) : Nat :=
  a.span.stop - a.span.start

/-- Attributes that say the same and take as many octets, read from different places. -/
structure Attribute.Moved (a a' : Attribute) : Prop where
  same : a.Same a'
  extent : a'.extent = a.extent

/-- Attributes that moved say the same. -/
theorem Attribute.forall₂_same {list list' : List Attribute} (h : List.Forall₂ Moved list list') :
    List.Forall₂ Same list list' :=
  h.imp fun _ _ => Moved.same

namespace Reader

variable {pool pool' : ConstantPool} {nested nested' : Reader (List Attribute)}
  {offset offset' : Nat} {octets : Bytes}

/-! ### Contents -/

theorem content_code (nested : Reader (List Attribute)) :
    content nested "Code" = .code <$> code nested := rfl

/-- **Contents but bodies** hold no attributes: they are what they are wherever they stand. -/
theorem content_of_ne {text : String} (h : text ≠ "Code") (nested nested' : Reader (List Attribute)) :
    content nested text = content nested' text ∧ (content nested text).Plain
      ∧ ∀ {offset octets content'}, (content nested text).Takes offset octets content' →
        ∀ body, content' ≠ .code body := by
  have hmap {α : Type} {R : Reader α} (hR : R.Plain) (f : α → Content)
      (hf : ∀ a body, f a ≠ .code body) : (f <$> R).Plain
        ∧ ∀ {offset octets content'}, (f <$> R).Takes offset octets content' →
          ∀ body, content' ≠ .code body := by
    refine ⟨hR.map f, fun htakes body => ?_⟩
    obtain ⟨a, -, rfl⟩ := hR.definite.takes_map_iff.1 htakes
    exact hf a body
  have hpure (c : Content) (hc : ∀ body, c ≠ .code body) : (pure c : Reader Content).Plain
        ∧ ∀ {offset octets content'}, (pure c : Reader Content).Takes offset octets content' →
          ∀ body, content' ≠ .code body := by
    refine ⟨plain_pure c, fun htakes => ?_⟩
    obtain ⟨-, rfl⟩ := takes_pure_iff.1 htakes
    exact hc
  unfold content
  split
  · exact absurd rfl h
  · exact ⟨rfl, hmap plain_stackFrame.counted _ fun _ _ => nofun⟩
  · exact ⟨rfl, hmap plain_lineEntry.counted _ fun _ _ => nofun⟩
  · exact ⟨rfl, hmap plain_variableEntry.counted _ fun _ _ => nofun⟩
  · exact ⟨rfl, hmap plain_variableEntry.counted _ fun _ _ => nofun⟩
  · exact ⟨rfl, hmap plain_annotations _ fun _ _ => nofun⟩
  · exact ⟨rfl, hmap plain_annotations _ fun _ _ => nofun⟩
  · exact ⟨rfl, hpure _ fun _ => nofun⟩
  · exact ⟨rfl, hpure _ fun _ => nofun⟩
  · exact ⟨rfl, hmap plain_u2 _ fun _ _ => nofun⟩
  · exact ⟨rfl, hmap plain_u2 _ fun _ _ => nofun⟩
  · exact ⟨rfl, hpure _ fun _ => nofun⟩

/-- The content of an attribute is read without looking behind it. -/
theorem definite_content (h : nested.Definite) (text : String) : (content nested text).Definite := by
  by_cases htext : text = "Code"
  · rw [htext, content_code]
    exact (definite_code h).map _
  · exact (content_of_ne htext nested nested).2.1.definite

/-! ### Attributes -/

/-- An attribute is its name, its length, and as many octets, which are read by the name. -/
theorem attributeEntry_eq (pool : ConstantPool) (nested : Reader (List Attribute)) :
    attributeEntry pool nested = Reader.offset >>= fun start => u2 >>= fun name =>
      u4 >>= fun length => liftM (pool.getText name) >>= fun text => Reader.offset >>= fun at_ =>
        bytes length.toNat >>= fun inside => within at_ inside (content nested text) >>= fun content =>
          Reader.offset >>= fun stop => pure { name, span := ⟨start, stop⟩, content } :=
  rfl

/-- An attribute is read without looking behind it. -/
theorem definite_attributeEntry (pool : ConstantPool) (nested : Reader (List Attribute)) :
    (attributeEntry pool nested).Definite := by
  rw [attributeEntry_eq]
  exact definite_offset.bind fun _ => definite_u2.bind fun _ => definite_u4.bind fun _ =>
    (definite_lift _).bind fun _ => definite_offset.bind fun _ => (definite_bytes _).bind fun _ =>
      (definite_within _ _ _).bind fun _ => definite_offset.bind fun _ => definite_pure _

/-- A table of attributes is read without looking behind it, by induction on the depth. -/
theorem definite_attributes (pool : ConstantPool) (depth : Nat) :
    (attributes pool depth).Definite := by
  cases depth with
  | zero => exact definite_throw _
  | succ depth => exact (definite_attributeEntry pool _).counted

/-- **The octets of an attribute**: its name, the length of its content, and the content. -/
theorem takes_attributeEntry_iff {a : Attribute} :
    (attributeEntry pool nested).Takes offset octets a
      ↔ ∃ inside text rest, octets = encodeAttribute a.name inside
          ∧ inside.length < 4294967296 ∧ pool.getText a.name = .ok text
          ∧ a.span = ⟨offset, offset + octets.length⟩
          ∧ content nested text ⟨offset + 6, inside⟩ = .ok (a.content, rest) := by
  rw [attributeEntry_eq]
  constructor
  · intro h
    obtain ⟨start, _, _, rfl, hstart, h₁⟩ := definite_offset.takes_bind_iff.1 h
    obtain ⟨rfl, rfl⟩ := takes_offset_iff.1 hstart
    obtain ⟨name, _, rfl, h₂⟩ := takes_u2_bind_iff.1 h₁
    obtain ⟨length, _, rfl, h₃⟩ := takes_u4_bind_iff.1 h₂
    obtain ⟨text, _, _, rfl, hlift, h₄⟩ := (definite_lift _).takes_bind_iff.1 h₃
    obtain ⟨rfl, htext⟩ := takes_lift_iff.1 hlift
    obtain ⟨at_, _, _, rfl, hat, h₅⟩ := definite_offset.takes_bind_iff.1 h₄
    obtain ⟨rfl, rfl⟩ := takes_offset_iff.1 hat
    obtain ⟨inside, _, _, rfl, hinside, h₆⟩ := (definite_bytes _).takes_bind_iff.1 h₅
    obtain ⟨rfl, hlength⟩ := takes_bytes_iff.1 hinside
    obtain ⟨content, _, _, rfl, hcontent, h₇⟩ := (definite_within _ _ _).takes_bind_iff.1 h₆
    obtain ⟨rfl, rest, hread⟩ := takes_within_iff.1 hcontent
    obtain ⟨stop, _, _, rfl, hstop, h₈⟩ := definite_offset.takes_bind_iff.1 h₇
    obtain ⟨rfl, rfl⟩ := takes_offset_iff.1 hstop
    obtain ⟨rfl, rfl⟩ := takes_pure_iff.1 h₈
    refine ⟨_, text, rest, ?_, hlength ▸ length.toNat_lt, htext, ?_, hread⟩
    · simp [encodeAttribute, hlength]
    · simp only [List.length_append, List.length_nil, Bytes.length_ofUInt16,
        Bytes.length_ofUInt32, Nat.add_zero, Span.mk.injEq, true_and]
      omega
  · rintro ⟨inside, text, rest, rfl, hlength, htext, hspan, hread⟩
    have hcount : (UInt32.ofNat inside.length).toNat = inside.length :=
      UInt32.toNat_ofNat_of_lt' hlength
    have hoctets : encodeAttribute a.name inside = [] ++ (Bytes.ofUInt16 a.name
        ++ (Bytes.ofUInt32 (UInt32.ofNat inside.length)
          ++ ([] ++ ([] ++ (inside ++ ([] ++ ([] ++ []))))))) := by
      simp [encodeAttribute]
    have hbytes : (bytes (UInt32.ofNat inside.length).toNat).Takes (offset + 6) inside inside := by
      rw [hcount]
      exact takes_bytes _ _
    have ha : a = { name := a.name, span := ⟨offset, offset + 6 + inside.length⟩,
                    content := a.content } := by
      have hlength' : offset + (encodeAttribute a.name inside).length
          = offset + 6 + inside.length := by
        simp only [encodeAttribute, List.length_append, Bytes.length_ofUInt16,
          Bytes.length_ofUInt32]
        omega
      rw [← hlength', ← hspan]
      cases a
      rfl
    rw [hoctets]
    refine (takes_offset offset).bind ((takes_u2 _ _).bind ((takes_u4 _ _).bind
      ((takes_lift_iff.2 ⟨rfl, htext⟩).bind ((takes_offset _).bind (hbytes.bind
        ((takes_within_iff.2 ⟨rfl, rest, hread⟩).bind ((takes_offset _).bind ?_)))))))
    rw [ha]
    exact takes_pure _ _

/-- An attribute takes the octets that it was read from. -/
theorem extent_of_takes {a : Attribute} (h : (attributeEntry pool nested).Takes offset octets a) :
    a.extent = octets.length := by
  obtain ⟨-, -, -, -, -, -, hspan, -⟩ := takes_attributeEntry_iff.1 h
  rw [Attribute.extent, hspan, Nat.add_sub_cancel_left]

/-- Attributes that hold a body are read by a reader of bodies. -/
theorem code_of_takes {a : Attribute} {body : Code} (hnested : nested.Definite)
    (h : (attributeEntry pool nested).Takes offset octets a) (hbody : a.content = .code body) :
    ∃ front rest, octets = encodeAttribute a.name (front ++ rest)
      ∧ pool.getText a.name = .ok "Code" ∧ (code nested).Takes (offset + 6) front body := by
  obtain ⟨inside, text, rest, hoctets, -, htext, -, hread⟩ := takes_attributeEntry_iff.1 h
  obtain ⟨front, hfront, -, hcontent⟩ := definite_content hnested text _ _ _ hread
  obtain rfl : text = "Code" := by
    by_contra hne
    exact (content_of_ne hne nested nested).2.2 hcontent body hbody
  rw [content_code, (definite_code hnested).takes_map_iff] at hcontent
  obtain ⟨body', htakes, heq⟩ := hcontent
  rw [hbody] at heq
  cases heq
  exact ⟨front, rest.rest, by rw [hoctets, ← hfront], htext, htakes⟩

/-- **A written attribute** is read back, if its content begins with what is read of it. -/
theorem takes_encodeAttribute {name : UInt16} {inside read rest : Bytes} {text : String}
    {c : Content} (hlength : inside.length < 4294967296) (htext : pool.getText name = .ok text)
    (hinside : inside = read ++ rest) (h : (content nested text).Takes (offset + 6) read c) :
    (attributeEntry pool nested).Takes offset (encodeAttribute name inside)
      ⟨name, ⟨offset, offset + (encodeAttribute name inside).length⟩, c⟩ := by
  have hread := h rest
  rw [← hinside] at hread
  exact takes_attributeEntry_iff.2 ⟨inside, text, _, rfl, hlength, htext, rfl, hread⟩

/-! ### Standing elsewhere -/

/-- Everything that `nested` takes on at most `n` octets, `nested'` takes too, wherever it stands,
and gives attributes that say the same and take as many octets. -/
def Carries (n : Nat) (nested nested' : Reader (List Attribute)) : Prop :=
  ∀ offset offset' octets list, octets.length ≤ n → nested.Takes offset octets list →
    ∃ list', nested'.Takes offset' octets list' ∧ List.Forall₂ Attribute.Moved list list'

/-- A content of at most `n` octets is read elsewhere. -/
theorem Carries.content {n : Nat} (h : Carries n nested nested') (hnested : nested.Definite)
    {text : String} {c : Content} (hlength : octets.length ≤ n)
    (htakes : (content nested text).Takes offset octets c) (name : UInt16) (span span' : Span) :
    ∃ c', (Reader.content nested' text).Takes offset' octets c'
      ∧ Attribute.Same ⟨name, span, c⟩ ⟨name, span', c'⟩ := by
  by_cases htext : text = "Code"
  · subst htext
    rw [content_code, (definite_code hnested).takes_map_iff] at htakes
    obtain ⟨body, hbody, rfl⟩ := htakes
    obtain ⟨each, rfl, hne, hcode, hhandlers, heach⟩ := (takes_code_iff hnested).1 hbody
    rw [List.length_append] at hlength
    obtain ⟨list', hlist', hmoved⟩ :=
      h _ (offset' + body.front.length) each _ (by omega) heach
    exact ⟨_, (takes_code hne hcode hhandlers hlist').map _,
      .code rfl (Attribute.forall₂_same hmoved)⟩
  · obtain ⟨heq, hplain, hne⟩ := content_of_ne htext nested nested'
    exact ⟨c, heq ▸ hplain.portable htakes, .other (hne htakes)⟩

/-- An attribute of at most `n` octets is read elsewhere. -/
theorem Carries.attributeEntry {n : Nat} (h : Carries n nested nested')
    (hnested : nested.Definite)
    (hpool : ∀ {index text}, pool.getText index = .ok text → pool'.getText index = .ok text)
    {a : Attribute} (hlength : octets.length ≤ n)
    (htakes : (attributeEntry pool nested).Takes offset octets a) :
    ∃ a', (Reader.attributeEntry pool' nested').Takes offset' octets a' ∧ a.Moved a' := by
  have hextent := extent_of_takes htakes
  obtain ⟨name, span, c⟩ := a
  obtain ⟨inside, text, rest, rfl, hinside, htext, -, hread⟩ := takes_attributeEntry_iff.1 htakes
  obtain ⟨read, hrest, -, hcontent⟩ := definite_content hnested text _ _ _ hread
  have hle : read.length ≤ n := by
    have hsplit := congrArg List.length hrest
    simp only [encodeAttribute, List.length_append] at hsplit hlength
    omega
  obtain ⟨c', hc', hsame⟩ : ∃ c', (Reader.content nested' text).Takes (offset' + 6) read c'
      ∧ Attribute.Same ⟨name, span, c⟩
        ⟨name, ⟨offset', offset' + (encodeAttribute name inside).length⟩, c'⟩ :=
    h.content hnested hle hcontent name span _
  have htakes' := takes_encodeAttribute hinside (hpool htext) hrest hc'
  exact ⟨_, htakes', hsame, (extent_of_takes htakes').trans hextent.symm⟩

/-- **Attributes that were read** are read again, wherever they stand, from a pool that has the same
texts and more. No more depth is needed than there are octets. -/
theorem carries_attributes
    (hpool : ∀ {index text}, pool.getText index = .ok text → pool'.getText index = .ok text)
    (depth n : Nat) : Carries n (attributes pool depth) (attributes pool' n) := by
  induction depth generalizing n with
  | zero =>
    intro offset offset' octets list _ h
    exact (takes_throw_iff.1 h).elim
  | succ depth ih =>
    intro offset offset' octets list hlength h
    obtain ⟨hcount, each, rfl, heach⟩ :=
      (takes_counted_iff (definite_attributeEntry pool _)).1 h
    rw [List.length_append, Bytes.length_ofUInt16] at hlength
    cases n with
    | zero => omega
    | succ n =>
      obtain ⟨list', heach', hmoved⟩ : ∃ list',
          (attributeEntry pool' (attributes pool' n)).TakesEach (offset' + 2) each list'
            ∧ List.Forall₂ Attribute.Moved list list' :=
        exists_takesEach (fun _ _ _ _ hle ha =>
          (ih n).attributeEntry (definite_attributes pool depth) hpool hle ha) (by omega) heach
      refine ⟨list', (takes_counted_iff (definite_attributeEntry pool' _)).2 ?_, hmoved⟩
      rw [← hmoved.length_eq]
      exact ⟨hcount, each, rfl, heach'⟩

end Reader

end AdviceWeaver

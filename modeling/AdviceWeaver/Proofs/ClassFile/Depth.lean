import AdviceWeaver.Proofs.ClassFile.Members

/-!
# Depth of nesting

Reading is bounded by a depth of nesting. Every level uses up octets, so a depth that is no less
than the octets are many decides nothing: at any two such depths a reader does the same, whether it
succeeds or fails (`Reader.AgreeWithin`). A class file may be read at any of them.

## Main results

* `Reader.agreeWithin_attributes`, `Reader.agreeWithin_classFile` — two depths that suffice.
* `ClassFile.read_eq` — a class file is read at any depth that suffices.
-/

namespace AdviceWeaver

namespace Reader

variable {α β : Type} {n : Nat} {R R' : Reader α} {c c' : Cursor} {a : α}

/-! ### Readers that agree -/

/-- On at most `n` octets, both readers do the same. -/
def AgreeWithin (n : Nat) (R R' : Reader α) : Prop :=
  ∀ c, c.rest.length ≤ n → R c = R' c

theorem agreeWithin_refl (n : Nat) (R : Reader α) : AgreeWithin n R R :=
  fun _ _ => rfl

/-- A definite reader leaves no more than there was. -/
theorem Definite.length_le (h : R.Definite) (hread : R c = .ok (a, c')) :
    c'.rest.length ≤ c.rest.length := by
  obtain ⟨octets, hrest, -, -⟩ := h _ _ _ hread
  rw [hrest, List.length_append]
  exact Nat.le_add_left ..

/-- How a sequence goes on matters only where its first reader stops. -/
theorem bind_congr_at {f g : α → Reader β} (h : ∀ a c', R c = .ok (a, c') → f a c' = g a c') :
    (R >>= f) c = (R >>= g) c := by
  show (R c >>= fun p => f p.1 p.2) = (R c >>= fun p => g p.1 p.2)
  cases hread : R c with
  | error e => rfl
  | ok p => exact h p.1 p.2 hread

/-- **Readers in sequence** agree if each of them does. -/
theorem AgreeWithin.bind {f f' : α → Reader β} (hR : R.Definite) (h : AgreeWithin n R R')
    (hf : ∀ a, AgreeWithin n (f a) (f' a)) : AgreeWithin n (R >>= f) (R' >>= f') := by
  intro c hc
  have hfirst : (R' >>= f') c = (R >>= f') c := by
    show (R' c >>= _) = (R c >>= _)
    rw [h c hc]
  rw [hfirst]
  exact bind_congr_at fun a c' hread => hf a c' (Nat.le_trans (hR.length_le hread) hc)

/-- Sequences with the same definite reader in front do the same if what follows does. -/
theorem Definite.agreeWithin_bind {f f' : α → Reader β} (h : R.Definite)
    (hf : ∀ a, AgreeWithin n (f a) (f' a)) : AgreeWithin n (R >>= f) (R >>= f') :=
  (agreeWithin_refl n R).bind h hf

/-- Choices by the same condition do the same if both of their branches do. -/
theorem AgreeWithin.ite {p : Prop} [Decidable p] {S S' : Reader α} (h : AgreeWithin n R R')
    (hS : AgreeWithin n S S') : AgreeWithin n (if p then R else S) (if p then R' else S') := by
  split
  · exact h
  · exact hS

/-- Repetitions do the same if the repeated readers do, by induction on the count. -/
theorem AgreeWithin.times (hR : R.Definite) (h : AgreeWithin n R R') (count : Nat) :
    AgreeWithin n (times count R) (times count R') := by
  induction count with
  | zero => exact agreeWithin_refl n _
  | succ count ih =>
    rw [times_succ, times_succ]
    refine h.bind hR fun a => ?_
    rw [map_eq_bind, map_eq_bind]
    exact ih.bind (hR.times count) fun _ => agreeWithin_refl n _

/-- Counted tables do the same if the readers of their items do. -/
theorem AgreeWithin.counted (hR : R.Definite) (h : AgreeWithin n R R') :
    AgreeWithin n (counted R) (counted R') :=
  definite_u2.agreeWithin_bind fun count => h.times hR count.toNat

/-! ### Attributes -/

section Attributes

variable {pool : ConstantPool} {nested nested' : Reader (List Attribute)} {depth depth' : Nat}

/-- Code attributes are read alike if the attributes inside them are. -/
theorem AgreeWithin.code (hnested : nested.Definite) (h : AgreeWithin n nested nested') :
    AgreeWithin n (code nested) (code nested') := by
  have hattributes (f : List Attribute → Code) :
      AgreeWithin n (nested >>= fun list => pure (f list))
        (nested' >>= fun list => pure (f list)) :=
    h.bind hnested fun _ => agreeWithin_refl n _
  rw [code_eq, code_eq]
  refine definite_u2.agreeWithin_bind fun _ => definite_u2.agreeWithin_bind
    fun _ => definite_u4.agreeWithin_bind fun length => ?_
  exact (agreeWithin_refl n _).ite ((definite_bytes _).agreeWithin_bind fun _ =>
    plain_exceptionHandler.counted.definite.agreeWithin_bind fun _ => hattributes _)

/-- The content of an attribute is read alike, as only a code attribute has attributes inside. -/
theorem AgreeWithin.content (hnested : nested.Definite) (h : AgreeWithin n nested nested')
    (text : String) : AgreeWithin n (content nested text) (content nested' text) := by
  by_cases htext : text = "Code"
  · rw [htext, content_code, content_code, map_eq_bind, map_eq_bind]
    exact (h.code hnested).bind (definite_code hnested) fun _ => agreeWithin_refl n _
  · rw [(content_of_ne htext nested nested').1]
    exact agreeWithin_refl n _

/-- Content that was set apart is shorter than what it was taken from. -/
theorem AgreeWithin.attributeEntry (hnested : nested.Definite) (h : AgreeWithin n nested nested') :
    AgreeWithin n (attributeEntry pool nested) (attributeEntry pool nested') := by
  intro c hc
  rw [attributeEntry_eq, attributeEntry_eq]
  refine bind_congr_at fun start c₁ h₁ => bind_congr_at fun name c₂ h₂ =>
    bind_congr_at fun length c₃ h₃ => bind_congr_at fun text c₄ h₄ =>
      bind_congr_at fun at_ c₅ h₅ => bind_congr_at fun inside c₆ h₆ => ?_
  have hinside : inside.length ≤ c₅.rest.length := by
    obtain ⟨octets, hrest, -, htakes⟩ := definite_bytes _ _ _ _ h₆
    rw [hrest, (takes_bytes_iff.1 htakes).1, List.length_append]
    exact Nat.le_add_right ..
  have h₅₄ := definite_offset.length_le h₅
  have h₄₃ := (definite_lift _).length_le h₄
  have h₃₂ := definite_u4.length_le h₃
  have h₂₁ := definite_u2.length_le h₂
  have h₁₀ := definite_offset.length_le h₁
  have hwithin : within at_ inside (Reader.content nested text)
      = within at_ inside (Reader.content nested' text) := by
    funext c
    rw [within, within, h.content hnested text ⟨at_, inside⟩ (by dsimp only; omega)]
  rw [hwithin]

/-- A table of attributes is not read from nothing, at no depth. -/
theorem attributes_nil (pool : ConstantPool) (depth offset : Nat) :
    attributes pool depth ⟨offset, []⟩ = .error .unexpectedEnd := by
  cases depth <;> rfl

/-- **Attributes** are read at any depth that is no less than the octets are many. -/
theorem agreeWithin_attributes (pool : ConstantPool) (hdepth : n ≤ depth) (hdepth' : n ≤ depth') :
    AgreeWithin n (attributes pool depth) (attributes pool depth') := by
  induction n generalizing depth depth' with
  | zero =>
    -- Without octets there is not even a count.
    rintro ⟨offset, rest⟩ hrest
    obtain rfl := List.length_eq_zero_iff.1 (Nat.le_zero.1 hrest)
    rw [attributes_nil, attributes_nil]
  | succ n ih =>
    obtain ⟨depth, rfl⟩ := Nat.exists_eq_succ_of_ne_zero (Nat.ne_zero_of_lt hdepth)
    obtain ⟨depth', rfl⟩ := Nat.exists_eq_succ_of_ne_zero (Nat.ne_zero_of_lt hdepth')
    intro c hc
    refine bind_congr_at fun count c' hcount => ?_
    have hentry : AgreeWithin n (attributeEntry pool (attributes pool depth))
        (attributeEntry pool (attributes pool depth')) :=
      (ih (Nat.le_of_succ_le_succ hdepth) (Nat.le_of_succ_le_succ hdepth')).attributeEntry
        (definite_attributes pool depth)
    have hless : c'.rest.length ≤ n := by
      have hlength := congrArg List.length (u2_eq_ok hcount).1
      rw [List.length_append, Bytes.length_ofUInt16] at hlength
      omega
    exact hentry.times (definite_attributeEntry pool _) count.toNat c' hless

end Attributes

/-! ### Class files -/

section ClassFiles

variable {depth depth' : Nat} (hdepth : n ≤ depth) (hdepth' : n ≤ depth')
include hdepth hdepth'

/-- A field is read alike at all depths that suffice for its attributes. -/
theorem agreeWithin_field (pool : ConstantPool) :
    AgreeWithin n (field pool depth) (field pool depth') := by
  rw [field_eq, field_eq]
  exact (definite_bytes 6).agreeWithin_bind fun _ =>
    (agreeWithin_attributes pool hdepth hdepth').bind (definite_attributes pool depth) fun _ =>
      agreeWithin_refl n _

/-- A method is read alike at all depths that suffice for its attributes. -/
theorem agreeWithin_method (pool : ConstantPool) :
    AgreeWithin n (method pool depth) (method pool depth') := by
  rw [method_eq, method_eq]
  exact definite_u2.agreeWithin_bind fun _ => definite_u2.agreeWithin_bind
    fun _ => definite_u2.agreeWithin_bind fun _ =>
      (agreeWithin_attributes pool hdepth hdepth').bind (definite_attributes pool depth) fun _ =>
        agreeWithin_refl n _

/-- What follows the pool is read alike at all depths that suffice. -/
theorem agreeWithin_members (minorVersion majorVersion : UInt16) (pool : ConstantPool)
    (poolEnd : Nat) : AgreeWithin n (members depth minorVersion majorVersion pool poolEnd)
      (members depth' minorVersion majorVersion pool poolEnd) := by
  refine definite_u2.agreeWithin_bind fun _ => definite_u2.agreeWithin_bind
    fun _ => definite_u2.agreeWithin_bind fun _ =>
      definite_u2.counted.agreeWithin_bind fun _ => ?_
  have hfields := (agreeWithin_field hdepth hdepth' pool).counted (definite_field pool depth)
  have hmethods := (agreeWithin_method hdepth hdepth' pool).counted (definite_method pool depth)
  exact hfields.bind (definite_field pool depth).counted fun _ =>
    hmethods.bind (definite_method pool depth).counted fun _ =>
      (agreeWithin_attributes pool hdepth hdepth').bind (definite_attributes pool depth) fun _ =>
        agreeWithin_refl n _

/-- **A class file** is read at any depth that is no less than the octets are many. -/
theorem agreeWithin_classFile : AgreeWithin n (classFile depth) (classFile depth') := by
  rw [classFile_eq, classFile_eq]
  exact definite_u4.agreeWithin_bind fun _ => (agreeWithin_refl n _).ite
    (definite_u2.agreeWithin_bind fun _ => definite_u2.agreeWithin_bind
      fun _ => definite_constantPool.agreeWithin_bind fun pool =>
        definite_offset.agreeWithin_bind fun poolEnd =>
          agreeWithin_members hdepth hdepth' _ _ pool poolEnd)

end ClassFiles

end Reader

/-- **A class** is what is read at any depth that is no less than the octets are many. -/
theorem ClassFile.read_eq {bytes : Bytes} {depth : Nat} (h : bytes.length ≤ depth) :
    ClassFile.read bytes = (Reader.classFile depth ⟨0, bytes⟩).map Prod.fst := by
  have hread : Reader.classFile bytes.length ⟨0, bytes⟩ = Reader.classFile depth ⟨0, bytes⟩ :=
    Reader.agreeWithin_classFile (Nat.le_refl _) h _ (Nat.le_refl _)
  rw [ClassFile.read, hread]
  cases Reader.classFile depth ⟨0, bytes⟩ <;> rfl

end AdviceWeaver

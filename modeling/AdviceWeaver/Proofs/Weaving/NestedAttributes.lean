import AdviceWeaver.Proofs.ClassFile.Attributes
import AdviceWeaver.Proofs.Weaving.Frames
import AdviceWeaver.Proofs.Weaving.Splicing

/-!
# The attributes of a new body

Whatever is written for an attribute of a method body is an attribute again: a copied one is read
where it now stands, and a table that was mended has as many entries as before, each of which can be
written. No attribute grows by more than the frames of one body can.

## Main results

* `Layout.takes_mapAttribute` — a mended attribute is read back.
* `Layout.takes_mapAttributes` — so are all that a body keeps, and their stack map frames are those
  that the layout makes of the old ones.
-/

namespace AdviceWeaver

open Reader

/-! ### Mended contents -/

/-- **A mended table** whose entries are of one size is read back and takes as many octets. -/
theorem takes_mapTable {α : Type} {R : Reader α} {encode : α → Bytes} {size : Nat}
    (hdefinite : R.Definite) (hwritten : ∀ a offset, R.Takes offset (encode a) a)
    (hread : ∀ {offset octets a}, R.Takes offset octets a → octets = encode a)
    (hsize : ∀ a, (encode a).length = size) (f : List α → Content)
    {g : α → Except WeaveError α} {offset : Nat} {octets out : Bytes} {items : List α}
    (h : (counted R).Takes offset octets items)
    (hmap : (do return some (encodeTable encode (← items.mapM g))) = Except.ok (some out)) :
    out.length = octets.length
      ∧ ∃ items', ∀ offset', (f <$> counted R).Takes offset' out (f items') := by
  simp only [except_bind_eq_ok, except_pure_eq_ok, Option.some.injEq, mapM_eq_ok_iff] at hmap
  obtain ⟨items', hmap, rfl⟩ := hmap
  have hlt := ((takes_counted_iff hdefinite).1 h).1
  rw [hmap.length_eq] at hlt
  constructor
  · rw [eq_encodeTable hdefinite hread h]
    simp only [encodeTable, List.length_append, Bytes.length_ofUInt16,
      Bytes.length_flatMap_eq encode size _ hsize, hmap.length_eq]
  · exact ⟨_, fun offset' => (takes_encodeTable hlt (fun a _ => hwritten a) offset').map f⟩

/-! ### Tables of frames -/

/-- The tables of frames are those of the first attribute and of the others. -/
theorem frameTables_cons (a : Attribute) (rest : List Attribute) :
    frameTables (a :: rest) = a.content.frames?.toList ++ frameTables rest := by
  rw [frameTables, List.filterMap_cons]
  cases a.content.frames? <;> rfl

namespace Attribute

/-- Attributes that say the same hold the same frames. -/
theorem Same.frames?_eq {a a' : Attribute} (h : a.Same a') :
    a'.content.frames? = a.content.frames? := by
  cases h <;> rfl

/-- An attribute that is dropped has no frames. -/
theorem frames?_of_not_isKept {a : Attribute} (h : ¬ a.isKept = true) :
    a.content.frames? = none := by
  obtain ⟨name, span, content⟩ := a
  cases content with
  | visibleTypeAnnotations | invisibleTypeAnnotations => rfl
  | _ => exact absurd rfl h

end Attribute

namespace Layout

/-- The tables of frames are mapped, each by itself. -/
def MapsTables (layout : Layout) (tables tables' : List (List StackFrame)) : Prop :=
  List.Forall₂ (fun frames frames' => layout.mapFrames frames = .ok frames') tables tables'

/-- What holds no offsets is no table of frames. -/
theorem frames?_of_mapContent {layout : Layout} {c : Content} (h : layout.mapContent c = .ok none) :
    c.frames? = none := by
  cases c with
  | stackMapTable frames => simp [mapContent] at h
  | _ => rfl

variable {instructions : List Instruction} {hooks : HookRefs} {nested nested' : Reader (List Attribute)}
  {text : String} {offset : Nat} {octets out : Bytes}

/-- The frames of a table are read back. -/
theorem takes_mapFrames (hlength : (Layout.of instructions hooks).newLength ≤ 65535)
    {frames frames' : List StackFrame} (h : (counted stackFrame).Takes offset octets frames)
    (hmap : (Layout.of instructions hooks).mapFrames frames = .ok frames') :
    (encodeTable StackFrame.encode frames').length ≤ octets.length + 2048
      ∧ ∀ offset', (counted stackFrame).Takes offset' (encodeTable StackFrame.encode frames')
          frames' := by
  obtain ⟨hlt, each, rfl, heach⟩ := (takes_counted_iff plain_stackFrame.definite).1 h
  obtain ⟨hcount, hwritable', hgrowth⟩ :=
    mapFrames_spec hlength (writable_of_takesEach heach) hmap
  constructor
  · rw [takesEach_eq (fun h => (stackFrame_of_takes h).2) heach]
    simp only [encodeTable, List.length_append, Bytes.length_ofUInt16]
    omega
  · exact takes_encodeTable (hcount ▸ hlt) fun frame hframe => takes_stackFrame (hwritable' frame hframe)

/-- **A mended content** is read back, and is not much longer. -/
theorem takes_mapContent (hlength : (Layout.of instructions hooks).newLength ≤ 65535)
    (hnested : nested.Definite) {c : Content} (h : (content nested text).Takes offset octets c)
    (hmap : (Layout.of instructions hooks).mapContent c = .ok (some out)) :
    out.length ≤ octets.length + 2048
      ∧ ∃ c', (∀ offset', (content nested' text).Takes offset' out c')
          ∧ (Layout.of instructions hooks).MapsTables c.frames?.toList c'.frames?.toList := by
  unfold content at h
  split at h
  · obtain ⟨body, -, rfl⟩ := (definite_code hnested).takes_map_iff.1 h
    cases hmap
  · obtain ⟨frames, hframes, rfl⟩ := plain_stackFrame.counted.definite.takes_map_iff.1 h
    simp only [mapContent, except_bind_eq_ok, except_pure_eq_ok, Option.some.injEq] at hmap
    obtain ⟨frames', hmap, rfl⟩ := hmap
    obtain ⟨hle, htakes⟩ := takes_mapFrames hlength hframes hmap
    exact ⟨hle, _, fun offset' => (htakes offset').map _, .cons hmap .nil⟩
  · obtain ⟨entries, hentries, rfl⟩ := plain_lineEntry.counted.definite.takes_map_iff.1 h
    obtain ⟨heq, _, htakes⟩ := takes_mapTable plain_lineEntry.definite takes_lineEntry
      eq_encode_of_lineEntry (fun _ => (rfl : _ = 4)) .lineNumberTable hentries hmap
    exact ⟨heq ▸ Nat.le_add_right .., _, htakes, .nil⟩
  · obtain ⟨entries, hentries, rfl⟩ := plain_variableEntry.counted.definite.takes_map_iff.1 h
    obtain ⟨heq, _, htakes⟩ := takes_mapTable plain_variableEntry.definite takes_variableEntry
      eq_encode_of_variableEntry (fun _ => (rfl : _ = 10)) .localVariableTable hentries hmap
    exact ⟨heq ▸ Nat.le_add_right .., _, htakes, .nil⟩
  · obtain ⟨entries, hentries, rfl⟩ := plain_variableEntry.counted.definite.takes_map_iff.1 h
    obtain ⟨heq, _, htakes⟩ := takes_mapTable plain_variableEntry.definite takes_variableEntry
      eq_encode_of_variableEntry (fun _ => (rfl : _ = 10)) .localVariableTypeTable hentries hmap
    exact ⟨heq ▸ Nat.le_add_right .., _, htakes, .nil⟩
  · obtain ⟨_, -, rfl⟩ := plain_annotations.definite.takes_map_iff.1 h
    cases hmap
  · obtain ⟨_, -, rfl⟩ := plain_annotations.definite.takes_map_iff.1 h
    cases hmap
  · obtain ⟨-, rfl⟩ := takes_pure_iff.1 h
    cases hmap
  · obtain ⟨-, rfl⟩ := takes_pure_iff.1 h
    cases hmap
  · obtain ⟨_, -, rfl⟩ := definite_u2.takes_map_iff.1 h
    cases hmap
  · obtain ⟨_, -, rfl⟩ := definite_u2.takes_map_iff.1 h
    cases hmap
  · obtain ⟨-, rfl⟩ := takes_pure_iff.1 h
    cases hmap

/-! ### Mended attributes -/

variable {pool pool' : ConstantPool} {bytes : Bytes}

/-- **An attribute of the new body** is read back, wherever it stands, if 32 bits can tell its length. -/
theorem takes_mapAttribute (hlength : (Layout.of instructions hooks).newLength ≤ 65535)
    (hnested : nested.Definite)
    (hpool : ∀ {index text}, pool.getText index = .ok text → pool'.getText index = .ok text)
    {n : Nat} (hcarries : Carries n nested nested') {a : Attribute}
    (h : (attributeEntry pool nested).Takes offset octets a) (hat : bytes.HasAt offset octets)
    (hmap : (Layout.of instructions hooks).mapAttribute bytes a = .ok out) :
    out.length ≤ octets.length + 2048
      ∧ (out.length < 4294967296 → out.length ≤ n →
        ∀ offset', ∃ a', (attributeEntry pool' nested').Takes offset' out a'
          ∧ (Layout.of instructions hooks).MapsTables a.content.frames?.toList
              a'.content.frames?.toList) := by
  obtain ⟨inside, text, rest, hoctets, hinside, htext, hspan, hread⟩ := takes_attributeEntry_iff.1 h
  simp only [mapAttribute, except_bind_eq_ok] at hmap
  obtain ⟨mended, hmended, hmap⟩ := hmap
  cases mended with
  | none =>
    rw [hspan, hat.slice?_eq] at hmap
    obtain rfl := except_pure_eq_ok.1 hmap
    refine ⟨Nat.le_add_right .., fun _ hn offset' => ?_⟩
    obtain ⟨a', ha', hmoved⟩ := hcarries.attributeEntry hnested hpool hn h
    refine ⟨a', ha', ?_⟩
    rw [hmoved.same.frames?_eq, frames?_of_mapContent hmended]
    exact .nil
  | some mended =>
    obtain rfl := except_pure_eq_ok.1 hmap
    obtain ⟨front, hfront, -, hcontent⟩ := definite_content hnested text _ _ _ hread
    obtain ⟨hle, c, hc, htables⟩ : mended.length ≤ front.length + 2048
        ∧ ∃ c, (∀ offset', (content nested' text).Takes offset' mended c)
          ∧ (Layout.of instructions hooks).MapsTables a.content.frames?.toList c.frames?.toList :=
      takes_mapContent hlength hnested hcontent hmended
    have hgrowth := congrArg List.length hfront
    have hsum := congrArg List.length hoctets
    simp only [encodeAttribute, List.length_append, Bytes.length_ofUInt16,
      Bytes.length_ofUInt32] at hgrowth hsum
    simp only [encodeAttribute, List.length_append, Bytes.length_ofUInt16, Bytes.length_ofUInt32]
    exact ⟨by omega, fun hsmall _ offset' => ⟨_, takes_encodeAttribute (by omega) (hpool htext)
      (List.append_nil mended).symm (hc (offset' + 6)), htables⟩⟩

/-- **What a body keeps** of its attributes is read back, if 32 bits can tell how long that is. -/
theorem takes_mapAttributes (hlength : (Layout.of instructions hooks).newLength ≤ 65535)
    (hnested : nested.Definite)
    (hpool : ∀ {index text}, pool.getText index = .ok text → pool'.getText index = .ok text)
    {n : Nat} (hcarries : Carries n nested nested') {list : List Attribute} {outs : List Bytes}
    (h : (attributeEntry pool nested).TakesEach offset octets list) (hat : bytes.HasAt offset octets)
    (hmap : List.Forall₂
      (fun a out => (Layout.of instructions hooks).mapAttribute bytes a = .ok out)
      (list.filter Attribute.isKept) outs) :
    (outs.flatMap id).length ≤ octets.length + 2048 * outs.length ∧ outs.length ≤ list.length
      ∧ ((outs.flatMap id).length < 4294967296 → (outs.flatMap id).length ≤ n →
        ∀ offset', ∃ list', (attributeEntry pool' nested').TakesEach offset' (outs.flatMap id) list'
          ∧ list'.length = outs.length
          ∧ (Layout.of instructions hooks).MapsTables (frameTables list) (frameTables list')) := by
  induction list generalizing offset octets outs with
  | nil =>
    cases hmap
    exact ⟨by simp, Nat.le_refl _, fun _ _ _ => ⟨[], rfl, rfl, .nil⟩⟩
  | cons a rest ih =>
    obtain ⟨front, back, rfl, hfront, hback⟩ := h
    rw [List.filter_cons] at hmap
    split at hmap
    · obtain ⟨out, more, hout, hmore, rfl⟩ := List.forall₂_cons_left_iff.1 hmap
      rw [List.flatMap_cons, List.length_append, id_eq]
      obtain ⟨hle, ha⟩ := takes_mapAttribute hlength hnested hpool hcarries hfront hat.left hout
      obtain ⟨hle', hcount, hrest⟩ := ih hback hat.right hmore
      refine ⟨?_, Nat.succ_le_succ hcount, fun hsmall hn offset' => ?_⟩
      · rw [List.length_append, List.length_cons]
        omega
      · obtain ⟨a', ha', htables⟩ := ha (by omega) (by omega) offset'
        obtain ⟨rest', hrest', hlength', htables'⟩ := hrest (by omega) (by omega) (offset' + out.length)
        refine ⟨a' :: rest', ⟨out, _, rfl, ha', hrest'⟩, by rw [List.length_cons, hlength']; rfl, ?_⟩
        rw [frameTables_cons, frameTables_cons]
        exact List.rel_append htables htables'
    · next hdropped =>
      obtain ⟨hle, hcount, hrest⟩ := ih hback hat.right hmap
      rw [frameTables_cons, Attribute.frames?_of_not_isKept hdropped]
      exact ⟨by rw [List.length_append]; omega, Nat.le_succ_of_le hcount, hrest⟩

end Layout

end AdviceWeaver

/-!
# Ascending lists of texts

Sets of texts, kept as ascending lists so that they are shown in order. Texts compare by their
characters, which is the order of their octets as well.
-/

namespace AdviceWeaver.Text

/-- Adds a text to an ascending list unless it is there. -/
def insertAscending (text : String) : List String → List String
  | [] => [text]
  | t :: rest =>
    if text < t then text :: t :: rest
    else if text = t then t :: rest
    else t :: insertAscending text rest

/-- **Membership:** inserting a text adds it and nothing else. -/
theorem mem_insertAscending {text t : String} {texts : List String} :
    t ∈ insertAscending text texts ↔ t = text ∨ t ∈ texts := by
  induction texts with
  | nil => simp [insertAscending]
  | cons u rest ih =>
    simp only [insertAscending]
    split
    · simp
    · split
      · next heq => simp [heq]
      · simp only [List.mem_cons, ih]
        constructor
        · rintro (h | h | h) <;> simp [h]
        · rintro (h | h | h) <;> simp [h]

/-- **Order:** inserting a text keeps a list ascending. -/
theorem pairwise_insertAscending {text : String} {texts : List String}
    (h : texts.Pairwise (· < ·)) : (insertAscending text texts).Pairwise (· < ·) := by
  induction texts with
  | nil => exact List.pairwise_singleton _ _
  | cons t rest ih =>
    obtain ⟨hfirst, hrest⟩ := List.pairwise_cons.1 h
    unfold insertAscending
    split
    · next hlt =>
      refine List.pairwise_cons.2 ⟨List.forall_mem_cons.2 ⟨hlt, fun u hu => ?_⟩, h⟩
      exact String.lt_trans hlt (hfirst u hu)
    · next hge =>
      split
      · exact h
      · next hne =>
        have hlt : t < text := Decidable.byContradiction fun hle =>
          hne (String.le_antisymm hle hge)
        refine List.pairwise_cons.2 ⟨fun u hu => ?_, ih hrest⟩
        rcases mem_insertAscending.1 hu with rfl | hu
        · exact hlt
        · exact hfirst u hu

end AdviceWeaver.Text

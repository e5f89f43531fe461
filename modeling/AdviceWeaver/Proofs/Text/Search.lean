import AdviceWeaver.Text.Search
import Mathlib.Data.List.DropRight

/-!
# Texts cut at separators

A text is cut at the first separator if what stands in front has none, and at the last one if what
stands behind has none. So where a text is cut does not depend on how the separators are looked for.

## Main results

* `Text.splitFirst_eq_some_iff`, `Text.splitLast_eq_some_iff` — where a text is cut.
* `Text.splitAll_eq_splitOn` — cutting at all separators.
* `Text.replaceChar_ofList`, `Text.mem_replaceChar_iff` — replacing a character.
* `Text.trimChars_trimChars`, `Text.trimChars_eq_nil_iff` — blanks at the ends.
-/

namespace AdviceWeaver.Text

variable {separator : Char} {cs front back : List Char}

/-! ### The first separator -/

/-- A separator in front has nothing before it. -/
theorem splitFirst_cons_self (cs : List Char) :
    splitFirst separator (separator :: cs) = some ([], cs) := by
  simp [splitFirst]

/-- A character that is no separator is part of what is before it. -/
theorem splitFirst_cons_of_ne {c : Char} (h : c ≠ separator) (cs : List Char) :
    splitFirst separator (c :: cs)
      = (splitFirst separator cs).map fun parts => (c :: parts.1, parts.2) := by
  have hpos : decide (c ≠ separator) = true := decide_eq_true h
  simp only [splitFirst, List.dropWhile_cons, List.takeWhile_cons, hpos, if_true]
  split
  · rfl
  · rfl

/-- **A text is cut at the first separator.** -/
theorem splitFirst_eq_some_iff :
    splitFirst separator cs = some (front, back)
      ↔ cs = front ++ separator :: back ∧ separator ∉ front := by
  induction cs generalizing front with
  | nil => simp [splitFirst]
  | cons c cs ih =>
    by_cases hc : c = separator
    · subst hc
      rw [splitFirst_cons_self]
      cases front with
      | nil => simp
      | cons d front =>
        refine iff_of_false nofun ?_
        rintro ⟨heq, hfront⟩
        cases heq
        exact hfront List.mem_cons_self
    · rw [splitFirst_cons_of_ne hc, Option.map_eq_some_iff]
      cases front with
      | nil =>
        refine iff_of_false nofun ?_
        rintro ⟨heq, -⟩
        cases heq
        exact hc rfl
      | cons d front =>
        constructor
        · rintro ⟨⟨front', back'⟩, hsplit, heq⟩
          cases heq
          obtain ⟨rfl, hfront⟩ := ih.1 hsplit
          exact ⟨rfl, List.not_mem_cons_of_ne_of_not_mem (Ne.symm hc) hfront⟩
        · rintro ⟨heq, hfront⟩
          cases heq
          exact ⟨(front, back), ih.2 ⟨rfl, List.not_mem_of_not_mem_cons hfront⟩, rfl⟩

/-- A text is not cut if it has no separator. -/
theorem splitFirst_eq_none_iff : splitFirst separator cs = none ↔ separator ∉ cs := by
  induction cs with
  | nil => simp [splitFirst]
  | cons c cs ih =>
    by_cases hc : c = separator
    · subst hc
      simp [splitFirst_cons_self]
    · rw [splitFirst_cons_of_ne hc, Option.map_eq_none_iff, ih, List.mem_cons, not_or]
      exact (and_iff_right (Ne.symm hc)).symm

/-! ### The last separator -/

/-- **A text is cut at the last separator.** -/
theorem splitLast_eq_some_iff :
    splitLast separator cs = some (front, back)
      ↔ cs = front ++ separator :: back ∧ separator ∉ back := by
  unfold splitLast
  rw [Option.map_eq_some_iff]
  constructor
  · rintro ⟨⟨back', front'⟩, hsplit, heq⟩
    cases heq
    obtain ⟨hcs, hback⟩ := splitFirst_eq_some_iff.1 hsplit
    have hcs : cs = front'.reverse ++ separator :: back'.reverse := by
      rw [← List.reverse_reverse cs, hcs]
      simp
    exact ⟨hcs, fun hmem => hback (List.mem_reverse.1 hmem)⟩
  · rintro ⟨rfl, hback⟩
    refine ⟨(back.reverse, front.reverse), splitFirst_eq_some_iff.2 ⟨?_, ?_⟩, ?_⟩
    · simp
    · exact fun hmem => hback (List.mem_reverse.1 hmem)
    · simp

/-! ### All separators -/

/-- **Cutting at all separators** leaves the parts between them. -/
theorem splitAll_eq_splitOn (separator : Char) (cs : List Char) :
    splitAll separator cs = cs.splitOn separator := by
  induction cs with
  | nil => exact (List.splitOn_nil separator).symm
  | cons c cs ih =>
    rw [splitAll, List.foldr_cons, ← splitAll, ih, List.splitOn_cons_eq_if_modifyHead]
    cases hparts : cs.splitOn separator with
    | nil => exact absurd hparts (List.splitOn_ne_nil separator cs)
    | cons part rest => simp [List.modifyHead]

/-! ### Replacing -/

/-- Characters are replaced one by one. -/
theorem replaceChar_ofList (old new : Char) (cs : List Char) :
    replaceChar old new (String.ofList cs)
      = String.ofList (cs.map fun c => if c = old then new else c) := by
  rw [← String.toList_inj, replaceChar, String.toList_map, String.toList_ofList,
    String.toList_ofList]

/-- What is replaced is gone. -/
theorem not_mem_replaceChar {old new : Char} (hne : old ≠ new) (text : String) :
    old ∉ (replaceChar old new text).toList := by
  rw [replaceChar, String.toList_map, List.mem_map]
  rintro ⟨c, -, heq⟩
  split at heq
  · exact hne heq.symm
  · next hc => exact hc heq

/-- Replacing keeps the places of all other characters. -/
theorem mem_replaceChar_iff {old new c : Char} (hold : c ≠ old) (hnew : c ≠ new) (text : String) :
    c ∈ (replaceChar old new text).toList ↔ c ∈ text.toList := by
  rw [replaceChar, String.toList_map, List.mem_map]
  constructor
  · rintro ⟨d, hd, heq⟩
    split at heq
    · exact absurd heq.symm hnew
    · exact heq ▸ hd
  · exact fun hc => ⟨c, hc, if_neg hold⟩

/-! ### Blanks at the ends -/

/-- Trimming takes the blanks off in front and then behind. -/
theorem trimChars_eq (cs : List Char) :
    trimChars cs = (cs.dropWhile isBlank).rdropWhile isBlank :=
  rfl

/-- Nothing is left of a text exactly if it is blank. -/
theorem trimChars_eq_nil_iff : trimChars cs = [] ↔ ∀ c ∈ cs, isBlank c = true := by
  rw [trimChars_eq, List.rdropWhile_eq_nil_iff, ← List.dropWhile_eq_nil_iff,
    List.dropWhile_idempotent, List.dropWhile_eq_nil_iff]

/-- Nothing is left of a text of blanks. -/
theorem trim_eq_empty_iff {text : String} :
    trim text = "" ↔ ∀ c ∈ text.toList, isBlank c = true := by
  rw [trim, String.ofList_eq_empty_iff, trimChars_eq_nil_iff]

/-- Trimming adds no characters. -/
theorem trimChars_subset (cs : List Char) : trimChars cs ⊆ cs := by
  intro c hc
  rw [trimChars_eq] at hc
  have hstart := List.rdropWhile_prefix isBlank (cs.dropWhile isBlank)
  exact (List.dropWhile_sublist isBlank).subset (hstart.subset hc)

/-- **Trimming** leaves no blanks at the ends. -/
theorem trimChars_trimChars (cs : List Char) : trimChars (trimChars cs) = trimChars cs := by
  have hfront : (trimChars cs).dropWhile isBlank = trimChars cs := by
    have hdropped := List.dropWhile_idempotent isBlank cs
    rw [List.dropWhile_eq_self_iff] at hdropped ⊢
    intro hlength
    have hstart : trimChars cs <+: cs.dropWhile isBlank := List.rdropWhile_prefix isBlank _
    rw [hstart.getElem hlength]
    exact hdropped (Nat.lt_of_lt_of_le hlength hstart.length_le)
  rw [trimChars_eq (trimChars cs), hfront, trimChars_eq]
  exact List.rdropWhile_idempotent isBlank _

theorem trim_trim (text : String) : trim (trim text) = trim text := by
  rw [trim, trim, String.toList_ofList, trimChars_trimChars]

end AdviceWeaver.Text

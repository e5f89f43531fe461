import AdviceWeaver.Weaving.Weave

/-!
# Splicing octets

`Spliced` says, without any arithmetic of offsets, what it is to replace parts of a byte string: parts
are copied in order, and the octets at the span of a splice are replaced by those of the splice.

## Main results

* `Spliced.eq_applySplices` — applying splices gives the byte string that they describe.
-/

namespace AdviceWeaver

/-! ### Replacing parts -/

/-- From `offset` on, `new` is `old` with splices put in. -/
inductive Spliced : Nat → Bytes → Bytes → List Splice → Prop
  | copied (offset : Nat) (octets : Bytes) : Spliced offset octets octets []
  | replaced {offset : Nat} {front old back back' : Bytes} {s : Splice} {splices : List Splice} :
      s.span = ⟨offset + front.length, offset + front.length + old.length⟩ →
      Spliced (offset + front.length + old.length) back back' splices →
      Spliced offset (front ++ old ++ back) (front ++ s.octets ++ back') (s :: splices)

namespace Spliced

variable {offset : Nat} {old new : Bytes} {splices : List Splice}

/-- **Applying splices** gives the byte string that they describe. -/
theorem eq_applySplices (h : Spliced offset old new splices) :
    applySplices offset old splices = new := by
  induction h with
  | copied => rfl
  | @replaced offset front old back back' s splices hspan _ ih =>
    have hstart : offset + front.length - offset = front.length := by omega
    have hstop : offset + front.length + old.length - offset = (front ++ old).length := by
      rw [List.length_append]
      omega
    simp only [applySplices, hspan, hstart, hstop, List.drop_left, ih]
    rw [List.append_assoc front old, List.take_left]

/-- Octets in front are copied. -/
theorem prepend (front : Bytes) (h : Spliced (offset + front.length) old new splices) :
    Spliced offset (front ++ old) (front ++ new) splices := by
  cases h with
  | copied => exact .copied offset _
  | @replaced _ front' old back back' s splices hspan hrest =>
    have hlength : offset + (front ++ front').length = offset + front.length + front'.length := by
      rw [List.length_append, Nat.add_assoc]
    have hsplice : Spliced offset (front ++ front' ++ old ++ back)
        (front ++ front' ++ s.octets ++ back') (s :: splices) :=
      .replaced (hlength ▸ hspan) (hlength ▸ hrest)
    simpa only [List.append_assoc] using hsplice

/-- **Parts in a row** are replaced one behind the other. -/
theorem append {old' new' : Bytes} {splices' : List Splice} (h : Spliced offset old new splices)
    (h' : Spliced (offset + old.length) old' new' splices') :
    Spliced offset (old ++ old') (new ++ new') (splices ++ splices') := by
  induction h with
  | copied => exact h'.prepend _
  | replaced hspan _ ih =>
    rw [List.append_assoc _ _ old', List.append_assoc _ _ new', List.cons_append]
    refine .replaced hspan (ih ?_)
    simpa only [List.length_append, Nat.add_assoc] using h'

end Spliced

end AdviceWeaver

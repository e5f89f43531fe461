import AdviceWeaver.Bytecode.Relocation
import AdviceWeaver.Proofs.Bytecode.ControlFlow
import AdviceWeaver.Proofs.Bytecode.Placement
import AdviceWeaver.Proofs.Sequencing

/-!
# Mending distances

`Layout.mend` keeps what an instruction does (its skeleton) and its length, and replaces every
distance by the one to where the old target landed (`Layout.Relocates`). Since the new body has at
most 65535 octets, no distance of 32 bits is cut off.

## Main results

* `Layout.mends_of_mend` — the instruction stays what it was, and its distances lead to where the
  old targets landed.
-/

namespace AdviceWeaver

/-! ### Padding anew -/

namespace Instruction

@[simp] theorem skeleton_repad (pc : Nat) (i : Instruction) :
    (i.repad pc).skeleton = i.skeleton := by
  cases i <;> rfl

@[simp] theorem distances_repad (pc : Nat) (i : Instruction) :
    (i.repad pc).distances = i.distances := by
  cases i <;> rfl

/-- An instruction that can stand somewhere can, padded anew, stand anywhere. -/
theorem wellFormedAt_repad {pc : Nat} {i : Instruction} (h : i.WellFormedAt pc) (newPc : Nat) :
    (i.repad newPc).WellFormedAt newPc := by
  cases i with
  | plain | branch | wideBranch => exact h
  | tableSwitch padding default low high distances =>
    exact ⟨List.length_replicate, h.2⟩
  | lookupSwitch padding default cases =>
    exact ⟨List.length_replicate, h.2⟩

end Instruction

namespace Layout

variable {layout : Layout} {site : Site}

/-- A distance of an old instruction and one of the new instruction lead to the same place: the
target of the old one landed where the new one leads. -/
def Relocates (layout : Layout) (site : Site) (distance distance' : Int) : Prop :=
  ∃ old new, layout.map? old = some new ∧ old < layout.oldLength
    ∧ (old : Int) = site.pc + distance ∧ (new : Int) = site.newPc + distance'

/-- Everything in the new body, and what is right behind it, has an offset of 16 bits. -/
structure Fits (layout : Layout) : Prop where
  map?_le {old new : Nat} : layout.map? old = some new → new ≤ 65535
  newPc_le {site : Site} : site ∈ layout.sites → site.newPc ≤ 65535

/-- A target is mapped if it is an offset in the old body where an instruction starts. -/
theorem mapTarget_eq_ok_iff {pc new : Nat} {distance : Int} :
    layout.mapTarget pc distance = .ok new
      ↔ ∃ old : Nat, layout.map? old = some new ∧ old < layout.oldLength
          ∧ (old : Int) = pc + distance := by
  simp only [mapTarget]
  split
  · next hout =>
    constructor
    · intro h
      cases h
    · rintro ⟨old, -, hlt, heq⟩
      omega
  · next hin =>
    obtain ⟨target, htarget⟩ : ∃ target : Nat, (target : Int) = pc + distance :=
      ⟨(pc + distance).toNat, by omega⟩
    rw [← htarget, Int.toNat_natCast]
    constructor
    · intro h
      split at h
      · next hmap =>
        cases h
        exact ⟨target, hmap, by omega, rfl⟩
      · cases h
    · rintro ⟨old, hmap, -, heq⟩
      obtain rfl : old = target := by omega
      rw [hmap]

/-- A distance that was mended leads to the new place of the old target, as all offsets fit. -/
theorem relocates_of_distance (hfits : layout.Fits) (hsite : site ∈ layout.sites)
    {distance distance' : Int32} (h : layout.distance site distance = .ok distance') :
    layout.Relocates site distance.toInt distance'.toInt := by
  simp only [Layout.distance, except_bind_eq_ok, except_pure_eq_ok] at h
  obtain ⟨new, hnew, rfl⟩ := h
  obtain ⟨old, hmap, hlt, heq⟩ := mapTarget_eq_ok_iff.1 hnew
  have hnewLe := hfits.map?_le hmap
  have hpcLe := hfits.newPc_le hsite
  refine ⟨old, new, hmap, hlt, heq, ?_⟩
  rw [Int32.toInt_ofInt_of_le (by omega) (by omega)]
  omega

/-- What mending makes of an instruction: it does the same, takes as many octets, can stand where
the old one could, and its distances are relocated. -/
structure Mends (layout : Layout) (site : Site) (i m : Instruction) : Prop where
  skeleton : m.skeleton = i.skeleton
  length : m.length = i.length
  wellFormedAt {pc : Nat} : i.WellFormedAt pc → m.WellFormedAt pc
  distances : List.Forall₂ (layout.Relocates site) i.distances m.distances

/-- A plain instruction is mended as it is. -/
theorem mends_plain (op : UInt8) (operands : Bytes) :
    layout.Mends site (.plain op operands) (.plain op operands) :=
  ⟨rfl, rfl, id, .nil⟩

/-- A branch is mended by its distance. -/
theorem mends_branch {op : UInt8} {old new : Int16}
    (h : layout.Relocates site old.toInt new.toInt) :
    layout.Mends site (.branch op old) (.branch op new) :=
  ⟨rfl, rfl, id, .cons h .nil⟩

/-- A wide branch is mended by its distance. -/
theorem mends_wideBranch {op : UInt8} {old new : Int32}
    (h : layout.Relocates site old.toInt new.toInt) :
    layout.Mends site (.wideBranch op old) (.wideBranch op new) :=
  ⟨rfl, rfl, id, .cons h .nil⟩

/-- A table switch is mended by its default and by each of its distances. -/
theorem mends_tableSwitch {padding : Bytes} {default default' low high : Int32}
    {distances distances' : List Int32}
    (hdefault : layout.Relocates site default.toInt default'.toInt)
    (h : List.Forall₂ (fun d d' : Int32 => layout.Relocates site d.toInt d'.toInt)
      distances distances') :
    layout.Mends site (.tableSwitch padding default low high distances)
      (.tableSwitch padding default' low high distances') where
  skeleton := by
    simp only [Instruction.skeleton, map_eq_map_of_forall₂ h fun _ _ _ => (rfl : (0 : Int32) = 0)]
  length := by simp only [Instruction.length, h.length_eq]
  wellFormedAt hwf := ⟨hwf.1, hwf.2.1, h.length_eq ▸ hwf.2.2⟩
  distances := .cons hdefault (List.forall₂_map_left_iff.2 (List.forall₂_map_right_iff.2 h))

/-- A lookup switch is mended by its default and by the distance of each case, with the same keys. -/
theorem mends_lookupSwitch {padding : Bytes} {default default' : Int32}
    {cases cases' : List (Int32 × Int32)}
    (hdefault : layout.Relocates site default.toInt default'.toInt)
    (h : List.Forall₂
      (fun c c' : Int32 × Int32 => c.1 = c'.1 ∧ layout.Relocates site c.2.toInt c'.2.toInt)
      cases cases') :
    layout.Mends site (.lookupSwitch padding default cases)
      (.lookupSwitch padding default' cases') where
  skeleton := by
    simp only [Instruction.skeleton,
      map_eq_map_of_forall₂ h fun _ _ hc => congrArg (·, (0 : Int32)) hc.1]
  length := by simp only [Instruction.length, h.length_eq]
  wellFormedAt hwf := ⟨hwf.1, h.length_eq ▸ hwf.2⟩
  distances := .cons hdefault
    (List.forall₂_map_left_iff.2 (List.forall₂_map_right_iff.2 (h.imp fun _ _ hc => hc.2)))

/-- **Mending** keeps what an instruction does and relocates its distances. -/
theorem mends_of_mend (hfits : layout.Fits) (hsite : site ∈ layout.sites) {m : Instruction}
    (h : layout.mend site = .ok m) : layout.Mends site site.instruction m := by
  have hdistance {d d' : Int32} (hd : layout.distance site d = .ok d') :=
    relocates_of_distance hfits hsite hd
  cases hi : site.instruction with
  | plain op operands =>
    simp only [mend, hi] at h
    cases h
    exact mends_plain op operands
  | branch op old =>
    simp only [mend, hi, except_bind_eq_ok] at h
    obtain ⟨new, hnew, h⟩ := h
    obtain ⟨target, hmap, hlt, heq⟩ := mapTarget_eq_ok_iff.1 hnew
    split at h
    · cases h
    · next hrange =>
      cases h
      refine mends_branch ⟨target, new, hmap, hlt, heq, ?_⟩
      rw [Int16.toInt_ofInt_of_le (by omega) (by omega)]
      omega
  | wideBranch op old =>
    simp only [mend, hi, except_bind_eq_ok, except_pure_eq_ok] at h
    obtain ⟨new, hnew, rfl⟩ := h
    exact mends_wideBranch (hdistance hnew)
  | tableSwitch padding default low high distances =>
    simp only [mend, hi, except_bind_eq_ok, except_pure_eq_ok, mapM_eq_ok_iff] at h
    obtain ⟨default', hdefault, distances', hdistances, rfl⟩ := h
    exact mends_tableSwitch (hdistance hdefault) (hdistances.imp fun _ _ hd => hdistance hd)
  | lookupSwitch padding default cases =>
    simp only [mend, hi, except_bind_eq_ok, except_pure_eq_ok, mapM_eq_ok_iff] at h
    obtain ⟨default', hdefault, cases', hcases, rfl⟩ := h
    refine mends_lookupSwitch (hdistance hdefault) (hcases.imp ?_)
    rintro c c' ⟨d', hd, rfl⟩
    exact ⟨rfl, hdistance hd⟩

end Layout

end AdviceWeaver

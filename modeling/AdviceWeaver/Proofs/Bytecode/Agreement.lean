import AdviceWeaver.Proofs.Bytecode.Listings

/-!
# Bodies that were rebuilt alike

One body is rebuilt in two ways, by insertions that call the same hooks (`Insertion.Alike`). The
results may be aligned differently, and every offset may be another one, but alignment aside they
are the same: instruction by instruction, with distances that lead to the same positions, and with
tables that hold the same positions (`BodiesAgree`).

## Main results

* `Insertion.Rebuilds.samePosition` — what an old offset became in both bodies is one position.
* `Insertion.Rebuilds.agree` — bodies that were rebuilt alike agree.
-/

namespace AdviceWeaver

/-! ### What it means to agree -/

/-- The listing is that of a body `new`, which was made of `old`: the instructions of `old` are in
order the method's own ones, and alignment is in front of them and does nothing. -/
structure Listing.Lists (listing : Listing) (old new : Code) : Prop where
  decode : Body.decode new.code = .ok listing.instructions
  own : ∃ instructions, Body.decode old.code = .ok instructions
    ∧ (listing.filter fun entry => entry.2 = .own).map (fun entry => entry.1.skeleton)
      = instructions.map Instruction.skeleton
  alignment : ∃ front back, listing = front ++ back
    ∧ (∀ entry ∈ front, entry.2 = .hook ∨ entry = (.nop, .alignment))
    ∧ ∀ entry ∈ back, entry.2 ≠ .alignment

/-- Two bodies made of `old` agree: but for alignment they are the same instructions, as `calls`
tells of the calls of hooks, and all targets, handlers and frames are at the same positions. -/
def BodiesAgree (calls : Instruction → Instruction → Prop) (old body body' : Code) : Prop :=
  ∃ listing listing' : Listing, listing.Lists old body ∧ listing'.Lists old body'
    ∧ List.Forall₂ (Listing.EntriesAgree calls (listing.SamePosition listing'))
      (listing.countedFrom 0) (listing'.countedFrom 0)
    ∧ TablesMoved (listing.SamePosition listing') body body'

/-! ### Instructions that were replaced in two ways -/

/-- Replacements of one instruction that do the same. -/
structure Twins (pair pair' : Replacement) : Prop where
  old : pair'.1 = pair.1
  skeleton : pair'.2.skeleton = pair.2.skeleton

/-- Twins return both or neither. -/
theorem Twins.isReturn {pair pair' : Replacement} (h : Twins pair pair') :
    pair'.2.isReturn = pair.2.isReturn :=
  Instruction.isReturn_eq h.skeleton

/-- Twins have old bodies of the same length. -/
theorem oldEnd_eq_of_twins {pairs pairs' : List Replacement} (h : List.Forall₂ Twins pairs pairs') :
    oldEnd pairs = oldEnd pairs' := by
  rw [oldEnd, oldEnd, map_eq_map_of_forall₂ h fun _ _ htwins => htwins.old.symm]

/-! ### Insertions that call the same hooks -/

/-- Both entries call a hook, and `calls` tells that it is the same. -/
structure Listing.CallsAlike (calls : Instruction → Instruction → Prop)
    (entry entry' : Instruction × Role) : Prop where
  role : entry.2 = .hook
  role' : entry'.2 = .hook
  calls : calls entry.1 entry'.1

namespace Insertion

/-- Alignment is in the prologue only and does nothing, and everything else is a call of a hook. -/
structure Tidy (x : Insertion) : Prop where
  prologue : ∀ entry ∈ x.prologue, entry.2 = .hook ∨ entry = (.nop, .alignment)
  exits : ∀ entry ∈ x.exits, entry.2 = .hook

/-- What counts of two insertions is calls of the same hooks. -/
structure Alike (calls : Instruction → Instruction → Prop) (x y : Insertion) : Prop where
  prologue : List.Forall₂ (Listing.CallsAlike calls) x.prologue.counted y.prologue.counted
  exits : List.Forall₂ (Listing.CallsAlike calls) x.exits.counted y.exits.counted

variable {calls : Instruction → Instruction → Prop} {x y : Insertion}

/-- Listings whose counted entries call alike agree wherever they stand. -/
theorem entriesAgree_of_callsAlike {R : Nat → Nat → Prop} {pc pc' : Nat} {listing listing' : Listing}
    (h : List.Forall₂ (Listing.CallsAlike calls) listing.counted listing'.counted) :
    List.Forall₂ (Listing.EntriesAgree calls R) (listing.countedFrom pc)
      (listing'.countedFrom pc') := by
  rw [← Listing.map_snd_countedFrom pc listing, ← Listing.map_snd_countedFrom pc' listing',
    List.forall₂_map_left_iff, List.forall₂_map_right_iff] at h
  refine h.imp ?_
  rintro ⟨pc, i, role⟩ ⟨pc', i', role'⟩ ⟨rfl, rfl, hcalls⟩
  exact .hook hcalls

/-- Insertions that are alike put the same calls in front of a return, and nothing elsewhere. -/
theorem Alike.before (h : Alike calls x y) {i i' : Instruction} (hreturn : i'.isReturn = i.isReturn) :
    List.Forall₂ (Listing.CallsAlike calls) (x.before i).counted (y.before i').counted := by
  simp only [Insertion.before, hreturn]
  split
  · exact h.exits
  · exact .nil

/-- As much counts in front of a place as in front of its twin. -/
theorem Alike.length_counted (h : Alike calls x y) {pairs pairs' : List Replacement}
    (htwins : List.Forall₂ Twins pairs pairs') :
    (x.weave (pairs.map Prod.snd)).counted.length
      = (y.weave (pairs'.map Prod.snd)).counted.length := by
  rw [weave, weave, Listing.counted_append, Listing.counted_append, List.length_append,
    List.length_append, h.prologue.length_eq]
  congr 1
  induction htwins with
  | nil => rfl
  | cons hpair _ ih =>
    simp only [List.map_cons, List.flatMap_cons, around, Listing.counted_append, List.length_append,
      ih, (h.before hpair.isReturn).length_eq]
    rfl

namespace Rebuilds

variable {pairs pairs' : List Replacement} {old new new' : Code} (hx : x.Rebuilds pairs old new)
  (hy : y.Rebuilds pairs' old new')

include hx in
/-- A rebuilt body is listed with its insertion. -/
theorem lists (htidy : x.Tidy) : (x.weave (pairs.map Prod.snd)).Lists old new where
  decode := hx.decode_new
  own := by
    have hnone {listing : Listing} (h : ∀ entry ∈ listing, entry.2 ≠ .own) :
        (listing.filter fun entry => entry.2 = .own) = [] := by
      simpa [List.filter_eq_nil_iff] using h
    have hbefore (i : Instruction) (entry : Instruction × Role) (h : entry ∈ x.before i) :
        entry.2 ≠ .own := by
      unfold before at h
      split at h
      · simp [htidy.exits entry h]
      · cases h
    have hprologue (entry : Instruction × Role) (h : entry ∈ x.prologue) : entry.2 ≠ .own := by
      obtain hrole | rfl := htidy.prologue entry h
      · simp [hrole]
      · simp
    refine ⟨_, hx.decode_old, ?_⟩
    rw [weave, List.filter_append, hnone hprologue, List.nil_append]
    have hskeleton (pair : Replacement) (hpair : pair ∈ pairs) : pair.2.skeleton = pair.1.skeleton :=
      hx.skeleton hpair
    clear hx
    induction pairs with
    | nil => rfl
    | cons pair rest ih =>
      simp only [List.map_cons, List.flatMap_cons, List.filter_append, List.map_append, around,
        hnone (hbefore pair.2), ih fun p hp => hskeleton p (List.mem_cons_of_mem pair hp)]
      simp [hskeleton pair List.mem_cons_self]
  alignment := by
    refine ⟨x.prologue, (pairs.map Prod.snd).flatMap x.around, rfl, htidy.prologue, ?_⟩
    intro entry hentry
    obtain ⟨i, -, hi⟩ := List.mem_flatMap.1 hentry
    rw [around, List.mem_append, List.mem_singleton] at hi
    obtain hi | rfl := hi
    · unfold before at hi
      split at hi
      · simp [htidy.exits entry hi]
      · cases hi
    · simp

include hx hy

/-- Instructions of one body were replaced in two ways. -/
theorem twins : List.Forall₂ Twins pairs pairs' := by
  have hfst : pairs.map Prod.fst = pairs'.map Prod.fst :=
    Except.ok.inj (hx.decode_old.symm.trans hy.decode_old)
  rw [← List.forall₂_eq_eq_eq, List.forall₂_map_left_iff, List.forall₂_map_right_iff] at hfst
  have hleft := (List.forall₂_and_left _ _).2 ⟨fun _ hpair => hx.skeleton hpair, hfst⟩
  have hright := (List.forall₂_and_left _ _).2 ⟨fun _ hpair => hy.skeleton hpair, hleft.flip⟩
  refine List.Forall₂.flip (hright.imp ?_)
  rintro pair' pair ⟨hpair', hpair, hold⟩
  exact ⟨hold.symm, by rw [hpair', hpair, hold]⟩

/-- **An old offset** became one position in both bodies. -/
theorem samePosition (h : Alike calls x y) (offset' offset offset'' : Nat)
    (hlands : x.Lands pairs offset offset') (hlands' : y.Lands pairs' offset offset'') :
    (x.weave (pairs.map Prod.snd)).SamePosition (y.weave (pairs'.map Prod.snd)) offset' offset'' := by
  obtain ⟨front, back, rfl, rfl, rfl⟩ := hlands
  obtain ⟨front', back', rfl, hfront, -⟩ := exists_of_forall₂_append (hx.twins hy)
  rw [oldEnd_eq_of_twins hfront] at hlands'
  obtain rfl := hlands'.new_unique (Lands.of_split rfl)
  exact ⟨_, Lands.stands rfl, h.length_counted hfront ▸ Lands.stands rfl⟩

/-- From a place on, both bodies have the same instructions. -/
theorem entriesAgree (h : Alike calls x y) {front front' back back' : List Replacement}
    (hpairs : pairs = front ++ back) (hpairs' : pairs' = front' ++ back')
    (hfront : List.Forall₂ Twins front front') (hback : List.Forall₂ Twins back back') :
    List.Forall₂
      (Listing.EntriesAgree calls
        ((x.weave (pairs.map Prod.snd)).SamePosition (y.weave (pairs'.map Prod.snd))))
      (Listing.countedFrom (x.newEnd front) ((back.map Prod.snd).flatMap x.around))
      (Listing.countedFrom (y.newEnd front') ((back'.map Prod.snd).flatMap y.around)) := by
  induction hback generalizing front front' with
  | nil => exact .nil
  | @cons pair pair' rest rest' hpair hrest ih =>
    have hbehind := ih (hpairs.trans (List.append_cons front pair rest))
      (hpairs'.trans (List.append_cons front' pair' rest'))
      (List.rel_append hfront (.cons hpair .nil))
    have hnew := hy.distances hpairs'
    rw [hpair.old, ← oldEnd_eq_of_twins hfront] at hnew
    have hdistances := (hx.distances hpairs).flip.comp (hx.samePosition hy h) hnew
    rw [newEnd_concat, newEnd_concat] at hbehind
    simp only [List.map_cons, List.flatMap_cons, around, Listing.countedFrom_append,
      List.append_assoc]
    refine List.rel_append (entriesAgree_of_callsAlike (h.before hpair.isReturn)) ?_
    exact List.rel_append (.cons (.own hpair.skeleton hdistances) .nil) hbehind

/-- **Bodies that were rebuilt alike** agree. -/
theorem agree (h : Alike calls x y) (hxTidy : x.Tidy) (hyTidy : y.Tidy) :
    BodiesAgree calls old new new' := by
  refine ⟨_, _, hx.lists hxTidy, hy.lists hyTidy, ?_,
    hx.tables.flip.comp (hx.samePosition hy h) hy.tables⟩
  rw [weave, weave, Listing.countedFrom_append, Listing.countedFrom_append]
  refine List.rel_append (entriesAgree_of_callsAlike h.prologue) ?_
  simpa [newEnd, weave] using hx.entriesAgree hy h rfl rfl .nil (hx.twins hy)

end Rebuilds

end Insertion

end AdviceWeaver

import AdviceWeaver.Proofs.Bytecode.Listings

/-!
# Insertions one after the other

A body that was rebuilt is rebuilt again, and what the first insertion put in is ordinary code to the
second. It stays as it is: it holds no distances and is no return, so that nothing is put in front of
it. Hence both together rebuild the old body at once, by the insertion that has the prologue of the
second in front of that of the first, and the exits of the second behind those of the first
(`Insertion.andThen`).

## Main results

* `Insertion.Rebuilds.andThen` — rebuilding twice is rebuilding once.
-/

namespace AdviceWeaver

/-! ### What stays as it is -/

/-- The instruction holds no distances and is no return. -/
structure Instruction.IsInert (i : Instruction) : Prop where
  plain : ∃ op operands, i = .plain op operands
  isReturn : i.isReturn = false

namespace Instruction

theorem isInert_call (method : UInt16) : (call method).IsInert :=
  ⟨⟨_, _, rfl⟩, rfl⟩

theorem isInert_nop : nop.IsInert :=
  ⟨⟨_, _, rfl⟩, rfl⟩

/-- An inert instruction is only rebuilt as itself, as it has no distances and no padding. -/
theorem IsInert.eq_of_skeleton_eq {i j : Instruction} (h : i.IsInert)
    (hskeleton : j.skeleton = i.skeleton) : j = i := by
  obtain ⟨op, operands, rfl⟩ := h.plain
  cases j with
  | plain => exact hskeleton
  | _ => cases hskeleton

end Instruction

namespace Insertion

variable {x y : Insertion}

/-- Nothing that is put in holds distances or is a return. -/
structure IsInert (x : Insertion) : Prop where
  prologue {i : Instruction} : i ∈ x.prologue.instructions → i.IsInert
  exits {i : Instruction} : i ∈ x.exits.instructions → i.IsInert

/-- What is put in front of an instruction is inert. -/
theorem IsInert.before (h : x.IsInert) {i j : Instruction} (hj : j ∈ (x.before i).instructions) :
    j.IsInert := by
  unfold Insertion.before at hj
  split at hj
  · exact h.exits hj
  · cases hj

/-- Nothing is put in front of what is inert. -/
theorem instructions_flatMap_around {instructions : List Instruction}
    (h : ∀ i ∈ instructions, i.IsInert) :
    Listing.instructions (instructions.flatMap y.around) = instructions := by
  induction instructions with
  | nil => rfl
  | cons i rest ih =>
    have hi := (h i List.mem_cons_self).isReturn
    rw [List.flatMap_cons, Listing.instructions_append,
      ih fun j hj => h j (List.mem_cons_of_mem i hj)]
    simp [around, before, hi, Listing.instructions]

/-- The insertion `y` behind `x`: what it puts in stands around what is there, in front of a body,
and directly in front of a return. -/
def andThen (x y : Insertion) : Insertion where
  prologue := y.prologue ++ x.prologue
  exits := x.exits ++ y.exits

/-- Both insertions in front of an instruction. -/
theorem instructions_before_andThen (i : Instruction) :
    ((x.andThen y).before i).instructions
      = (x.before i).instructions ++ (y.before i).instructions := by
  unfold before
  split
  · exact Listing.instructions_append ..
  · rfl

/-! ### Instructions that are replaced twice -/

/-- An instruction, what the first rebuilding made of it, and what the second one made of that. -/
structure Rewritten where
  old : Instruction
  mid : Instruction
  new : Instruction

namespace Rewritten

variable (t : Rewritten)

/-- What the first rebuilding does. -/
def first : Replacement := (t.old, t.mid)

/-- What the second rebuilding does. -/
def second : Replacement := (t.mid, t.new)

/-- What both do. -/
def both : Replacement := (t.old, t.new)

end Rewritten

/-- Instructions that are replaced by themselves. -/
def kept (listing : Listing) : List Replacement :=
  listing.instructions.map fun i => (i, i)

/-- How the second rebuilding sees an instruction with what the first one put in front of it. -/
def seen (x : Insertion) (t : Rewritten) : List Replacement :=
  kept (x.before t.mid) ++ [t.second]

/-- How the second rebuilding sees the body that the first one made. -/
def thread (x : Insertion) (ts : List Rewritten) : List Replacement :=
  kept x.prologue ++ ts.flatMap x.seen

@[simp] theorem map_fst_kept (listing : Listing) :
    (kept listing).map Prod.fst = listing.instructions := by
  simp [kept, Function.comp_def]

@[simp] theorem map_snd_kept (listing : Listing) :
    (kept listing).map Prod.snd = listing.instructions := by
  simp [kept, Function.comp_def]

/-- The second rebuilding sees instructions in two parts one part after the other. -/
theorem thread_append (front back : List Rewritten) :
    x.thread (front ++ back) = x.thread front ++ back.flatMap x.seen := by
  simp [thread]

/-- What the second rebuilding begins with is the body that the first one made. -/
theorem map_fst_thread (ts : List Rewritten) :
    (x.thread ts).map Prod.fst
      = (x.weave ((ts.map Rewritten.first).map Prod.snd)).instructions := by
  rw [thread, weave, List.map_append, map_fst_kept, Listing.instructions_append]
  congr 1
  induction ts with
  | nil => rfl
  | cons t rest ih =>
    simp only [List.flatMap_cons, List.map_cons, List.map_append, Listing.instructions_append, ih]
    simp [seen, around, Rewritten.first, Rewritten.second, Listing.instructions]

/-- What is inert stays what it is. -/
theorem eq_kept {listing : Listing} (hinert : ∀ i ∈ listing.instructions, i.IsInert)
    {pairs : List Replacement} (h : pairs.map Prod.fst = listing.instructions)
    (hskeleton : ∀ pair ∈ pairs, pair.2.skeleton = pair.1.skeleton) : pairs = kept listing := by
  have hsame (pair : Replacement) (hpair : pair ∈ pairs) : (pair.1, pair.1) = id pair := by
    have hmem : pair.1 ∈ listing.instructions := h ▸ List.mem_map_of_mem hpair
    exact Prod.ext rfl ((hinert _ hmem).eq_of_skeleton_eq (hskeleton pair hpair)).symm
  rw [kept, ← h, List.map_map]
  exact ((List.map_congr_left hsame).trans (List.map_id pairs)).symm

/-- **The second rebuilding** sees the instructions of the first one, and the old ones through
them. -/
theorem exists_thread (hinert : x.IsInert) {first second : List Replacement}
    (h : second.map Prod.fst = (x.weave (first.map Prod.snd)).instructions)
    (hskeleton : ∀ pair ∈ second, pair.2.skeleton = pair.1.skeleton) :
    ∃ ts : List Rewritten, first = ts.map Rewritten.first ∧ second = x.thread ts := by
  rw [weave, Listing.instructions_append] at h
  obtain ⟨front, back, rfl, hfront, hback⟩ := List.map_eq_append_iff.1 h
  obtain rfl := eq_kept (fun _ => hinert.prologue) hfront
    fun pair hpair => hskeleton pair (List.mem_append_left _ hpair)
  suffices hts : ∃ ts : List Rewritten, first = ts.map Rewritten.first ∧ back = ts.flatMap x.seen by
    obtain ⟨ts, hfirst, rfl⟩ := hts
    exact ⟨ts, hfirst, rfl⟩
  have hskeleton' := fun pair hpair => hskeleton pair (List.mem_append_right (kept x.prologue) hpair)
  clear h hskeleton
  induction first generalizing back with
  | nil =>
    obtain rfl := List.map_eq_nil_iff.1 hback
    exact ⟨[], rfl, rfl⟩
  | cons pair rest ih =>
    rw [List.map_cons, List.flatMap_cons, Listing.instructions_append] at hback
    obtain ⟨around, more, rfl, haround, hmore⟩ := List.map_eq_append_iff.1 hback
    rw [Insertion.around, Listing.instructions_append] at haround
    obtain ⟨calls, own, rfl, hcalls, hown⟩ := List.map_eq_append_iff.1 haround
    obtain ⟨⟨mid, new⟩, _, rfl, rfl, hnil⟩ := List.map_eq_cons_iff.1 hown
    obtain rfl := List.map_eq_nil_iff.1 hnil
    obtain rfl := eq_kept (fun _ => hinert.before) hcalls
      fun p hp => hskeleton' p (by simp [hp])
    obtain ⟨ts, rfl, rfl⟩ := ih _ hmore fun p hp => hskeleton' p (by simp [hp])
    exact ⟨⟨pair.1, pair.2, new⟩ :: ts, rfl, rfl⟩

/-! ### Both at once -/

/-- What is in front of a place is as long for the second rebuilding as the first one made it. -/
theorem oldEnd_thread (ts : List Rewritten) :
    oldEnd (x.thread ts) = x.newEnd (ts.map Rewritten.first) := by
  rw [oldEnd, map_fst_thread, newEnd]

section Thread

variable {ts : List Rewritten} (hinert : x.IsInert)
  (hts : ∀ t ∈ ts, t.new.skeleton = t.mid.skeleton)
include hinert hts

/-- What the second rebuilding writes is what both insertions make of the new instructions. -/
theorem instructions_weave_thread :
    (y.weave ((x.thread ts).map Prod.snd)).instructions
      = ((x.andThen y).weave ((ts.map Rewritten.both).map Prod.snd)).instructions := by
  simp only [thread, weave, andThen, List.map_append, map_snd_kept, List.flatMap_append,
    Listing.instructions_append, instructions_flatMap_around fun _ => hinert.prologue,
    List.append_assoc]
  congr 2
  induction ts with
  | nil => rfl
  | cons t rest ih =>
    have hbefore : x.before t.mid = x.before t.new := by
      rw [before, before, Instruction.isReturn_eq (hts t List.mem_cons_self)]
    simp only [List.flatMap_cons, List.map_cons, List.map_append, List.flatMap_append,
      Listing.instructions_append, ih fun u hu => hts u (List.mem_cons_of_mem t hu)]
    congr 1
    simp only [seen, around, List.map_append, map_snd_kept, List.flatMap_append,
      Listing.instructions_append, instructions_flatMap_around fun _ => hinert.before, hbefore,
      Rewritten.both]
    have hboth := instructions_before_andThen (x := x) (y := y) t.new
    rw [andThen] at hboth
    rw [hboth, List.append_assoc]
    simp [Rewritten.second, around, Listing.instructions]

/-- Both rebuildings one after the other bring a place where one with both insertions does. -/
theorem newEnd_thread : y.newEnd (x.thread ts) = (x.andThen y).newEnd (ts.map Rewritten.both) := by
  rw [newEnd, newEnd, instructions_weave_thread hinert hts]

/-- **Where control lands** after both is where it lands after one and then the other. -/
theorem Lands.andThen {old mid new : Nat} (h : x.Lands (ts.map Rewritten.first) old mid)
    (h' : y.Lands (x.thread ts) mid new) :
    (x.andThen y).Lands (ts.map Rewritten.both) old new := by
  obtain ⟨_, _, hsplit, rfl, rfl⟩ := h
  obtain ⟨front, back, rfl, rfl, rfl⟩ := List.map_eq_append_iff.1 hsplit
  rw [← oldEnd_thread] at h'
  obtain rfl := (Lands.of_split (thread_append front back)).new_unique h'
  rw [newEnd_thread hinert fun t ht => hts t (List.mem_append_left back ht)]
  refine ⟨_, back.map Rewritten.both, List.map_append, ?_, rfl⟩
  simp [oldEnd, Function.comp_def, Rewritten.first, Rewritten.both]

/-- The second rebuilding finds an instruction where the first one put it, and puts it where both
do. -/
theorem newPc_thread {front back : List Rewritten} {t : Rewritten} (hsplit : ts = front ++ t :: back) :
    oldEnd (x.thread front ++ kept (x.before t.mid))
        = x.newPc (front.map Rewritten.first) t.first
      ∧ y.newPc (x.thread front ++ kept (x.before t.mid)) t.second
        = (x.andThen y).newPc (front.map Rewritten.both) t.both := by
  subst hsplit
  have hbefore : x.before t.mid = x.before t.new := by
    rw [before, before, Instruction.isReturn_eq (hts t (by simp))]
  constructor
  · simp [oldEnd, map_fst_thread, newPc, newEnd, Rewritten.first]
  · rw [newPc, newPc, newEnd_append, newEnd_thread hinert fun u hu => hts u (by simp [hu]),
      map_snd_kept, instructions_flatMap_around fun _ => hinert.before, hbefore]
    simp only [Rewritten.second, Rewritten.both, instructions_before_andThen, Body.length_append,
      Nat.add_assoc]

end Thread

/-- **Rebuilding twice** is rebuilding once, with both insertions. -/
theorem Rebuilds.andThen {first second : List Replacement} {old mid new : Code}
    (h : x.Rebuilds first old mid) (h' : y.Rebuilds second mid new) (hinert : x.IsInert) :
    ∃ pairs, (x.andThen y).Rebuilds pairs old new := by
  have hmid : second.map Prod.fst = (x.weave (first.map Prod.snd)).instructions :=
    Except.ok.inj (h'.decode_old.symm.trans h.decode_new)
  obtain ⟨ts, rfl, rfl⟩ := exists_thread hinert hmid fun _ => h'.skeleton
  have hmem (t : Rewritten) (ht : t ∈ ts) : t.second ∈ x.thread ts :=
    List.mem_append_right _ (List.mem_flatMap.2 ⟨t, ht, List.mem_append_right _ List.mem_cons_self⟩)
  have hts (t : Rewritten) (ht : t ∈ ts) : t.new.skeleton = t.mid.skeleton :=
    h'.skeleton (hmem t ht)
  have hlands (old mid new : Nat) (hfirst : x.Lands (ts.map Rewritten.first) old mid)
      (hsecond : y.Lands (x.thread ts) mid new) :
      (x.andThen y).Lands (ts.map Rewritten.both) old new :=
    hfirst.andThen hinert hts hsecond
  refine ⟨ts.map Rewritten.both, ?_, ?_, ?_, ?_, h.tables.comp hlands h'.tables⟩
  · rw [h.decode_old]
    simp [Function.comp_def, Rewritten.first, Rewritten.both]
  · rw [h'.decode_new, instructions_weave_thread hinert hts]
  · intro pair hpair
    obtain ⟨t, ht, rfl⟩ := List.mem_map.1 hpair
    exact (hts t ht).trans (h.skeleton (List.mem_map_of_mem ht))
  · intro front back pair hsplit
    obtain ⟨front, _, rfl, rfl, hrest⟩ := List.map_eq_append_iff.1 hsplit
    obtain ⟨t, back, rfl, rfl, rfl⟩ := List.map_eq_cons_iff.1 hrest
    obtain ⟨hold, hnew⟩ := newPc_thread (y := y) hinert hts rfl
    have hsplit₁ : (front ++ t :: back).map Rewritten.first
        = front.map Rewritten.first ++ t.first :: back.map Rewritten.first := by simp
    have hsplit₂ : x.thread (front ++ t :: back)
        = (x.thread front ++ kept (x.before t.mid)) ++ t.second :: back.flatMap x.seen := by
      simp [thread_append, seen]
    have hsecond := h'.distances hsplit₂
    rw [hold, hnew] at hsecond
    have hboth := (h.distances hsplit₁).comp hlands hsecond
    have hpc : oldEnd (front.map Rewritten.first) = oldEnd (front.map Rewritten.both) := by
      simp [oldEnd, Function.comp_def, Rewritten.first, Rewritten.both]
    rwa [hpc] at hboth

end Insertion

end AdviceWeaver

import Mathlib.Data.List.Induction
import AdviceWeaver.Bytecode.Layout
import AdviceWeaver.Proofs.Bytecode.Decoding

/-!
# Placement of instructions

What a `Layout` says, told by splitting the body: in front of any instruction stand some others, the
instruction's old offset is what these take, and its `start` is where placing these ends
(`Layout.endFrom`). Landing places therefore grow strictly with the old offsets.

## Main results

* `Layout.map?_eq_some_iff` — an old offset has a landing place exactly if the body can be split
  there, and it lands where the first part ends.
* `Layout.map?_lt` — landing places are in the order of the old offsets.
* `Layout.mem_sites_iff` — the sites are the landing places of the instructions.
-/

namespace AdviceWeaver

/-- The beginnings of a sequence are in order under a measure that grows with every item. -/
theorem prefix_le_iff {α : Type} {f : List α → Nat} (hf : ∀ front a, f front < f (front ++ [a]))
    {front front' all : List α} (h : front <+: all) (h' : front' <+: all) :
    f front ≤ f front' ↔ front.length ≤ front'.length := by
  have grows (front back : List α) (hne : back ≠ []) : f front < f (front ++ back) := by
    induction back using List.reverseRecOn with
    | nil => exact absurd rfl hne
    | append_singleton back a ih =>
      rw [← List.append_assoc]
      cases back with
      | nil => simpa using hf front a
      | cons b back => exact Nat.lt_trans (ih (by simp)) (hf _ a)
  obtain ⟨back, rfl⟩ | ⟨back, rfl⟩ := List.prefix_or_prefix_of_prefix h h'
  · cases back with
    | nil => simp
    | cons a back => simpa using Nat.le_of_lt (grows front (a :: back) (by simp))
  · cases back with
    | nil => simp
    | cons a back =>
      have hlt := grows front' (a :: back) (by simp)
      simp only [List.length_append, List.length_cons]
      omega

namespace Site

/-- The offset behind the instruction of a site. -/
def stop (site : Site) : Nat :=
  site.newPc + site.instruction.length

end Site

namespace Layout

/-- The sites of instructions in a row from `pc` and `newEnd` on. -/
def sitesFrom (exitLength pc newEnd : Nat) : List Instruction → List Site
  | [] => []
  | i :: rest =>
    place exitLength pc newEnd i
      :: sitesFrom exitLength (pc + i.length) (place exitLength pc newEnd i).stop rest

/-- Where the new body ends after placing instructions from `newEnd` on. -/
def endFrom (exitLength newEnd : Nat) : List Instruction → Nat
  | [] => newEnd
  | i :: rest => endFrom exitLength (place exitLength 0 newEnd i).stop rest

theorem stop_place (exitLength pc newEnd : Nat) (i : Instruction) :
    (place exitLength pc newEnd i).stop = (place exitLength 0 newEnd i).stop := rfl

/-- The loop that places instructions collects the sites in reverse and keeps track of the end. -/
theorem placeOnto_eq (exitLength pc newEnd : Nat) (done : List Site)
    (instructions : List Instruction) :
    placeOnto exitLength pc newEnd done instructions
      = (done.reverse ++ sitesFrom exitLength pc newEnd instructions,
          endFrom exitLength newEnd instructions) := by
  induction instructions generalizing pc newEnd done with
  | nil => simp [placeOnto, sitesFrom, endFrom]
  | cons i rest ih =>
    rw [placeOnto, ih]
    simp only [List.reverse_cons, List.append_assoc, List.cons_append, List.nil_append, sitesFrom,
      endFrom]
    rfl

/-- The end of instructions in two parts is that of the second part, placed behind the first. -/
theorem endFrom_append (exitLength newEnd : Nat) (front back : List Instruction) :
    endFrom exitLength newEnd (front ++ back)
      = endFrom exitLength (endFrom exitLength newEnd front) back := by
  induction front generalizing newEnd with
  | nil => rfl
  | cons i rest ih => simp only [List.cons_append, endFrom, ih]

/-- The sites of instructions in two parts are those of the first and then those of the second. -/
theorem sitesFrom_append (exitLength pc newEnd : Nat) (front back : List Instruction) :
    sitesFrom exitLength pc newEnd (front ++ back)
      = sitesFrom exitLength pc newEnd front
        ++ sitesFrom exitLength (pc + Body.length front) (endFrom exitLength newEnd front) back := by
  induction front generalizing pc newEnd with
  | nil => simp [sitesFrom, endFrom]
  | cons i rest ih =>
    simp only [List.cons_append, sitesFrom, endFrom, ih, Body.length_cons, Nat.add_assoc,
      stop_place exitLength pc]

/-- There is one site for each instruction. -/
@[simp] theorem length_sitesFrom (exitLength pc newEnd : Nat) (instructions : List Instruction) :
    (sitesFrom exitLength pc newEnd instructions).length = instructions.length := by
  induction instructions generalizing pc newEnd with
  | nil => rfl
  | cons i rest ih => simp [sitesFrom, ih]

/-! ### Growth -/

/-- An instruction is placed behind the end of what stands in front, with the exit calls between. -/
theorem newEnd_le_newPc (exitLength pc newEnd : Nat) (i : Instruction) :
    newEnd ≤ (place exitLength pc newEnd i).newPc := by
  simp only [place]
  split <;> omega

/-- An instruction that has octets stops behind its own offset. -/
theorem newPc_lt_stop (site : Site) (h : 0 < site.instruction.length) : site.newPc < site.stop := by
  simp only [Site.stop]
  omega

theorem length_repad_pos (pc : Nat) (i : Instruction) : 0 < (i.repad pc).length := by
  cases i <;> simp only [Instruction.repad, Instruction.length] <;> omega

/-- Placing an instruction moves the end on. -/
theorem lt_stop_place (exitLength pc newEnd : Nat) (i : Instruction) :
    newEnd < (place exitLength pc newEnd i).stop :=
  Nat.lt_of_le_of_lt (newEnd_le_newPc exitLength pc newEnd i)
    (newPc_lt_stop _ (length_repad_pos _ i))

/-- Placing instructions never moves the end back. -/
theorem le_endFrom (exitLength newEnd : Nat) (instructions : List Instruction) :
    newEnd ≤ endFrom exitLength newEnd instructions := by
  induction instructions generalizing newEnd with
  | nil => exact Nat.le_refl _
  | cons i rest ih => exact Nat.le_trans (Nat.le_of_lt (lt_stop_place _ _ _ i)) (ih _)

/-- **Landing places grow** with what stands in front. -/
theorem endFrom_mono {exitLength newEnd : Nat} {front all : List Instruction}
    (h : front <+: all) : endFrom exitLength newEnd front ≤ endFrom exitLength newEnd all := by
  obtain ⟨back, rfl⟩ := h
  rw [endFrom_append]
  exact le_endFrom ..

/-! ### The layout of a body -/

section Of

variable (instructions : List Instruction) (hooks : HookRefs)

/-- The octets of the exit calls. -/
abbrev exitLength : Nat := Body.length hooks.exitCalls

/-- The octets in front of the old body. -/
abbrev prologueLength : Nat := Body.length hooks.prologue

/-- The sites of a body begin behind the prologue, at the old offset zero. -/
theorem sites_of :
    (Layout.of instructions hooks).sites
      = sitesFrom (exitLength hooks) 0 (prologueLength hooks) instructions := by
  simp [Layout.of, placeOnto_eq]

/-- The new body is as long as its last instruction reaches. -/
theorem newLength_of :
    (Layout.of instructions hooks).newLength
      = endFrom (exitLength hooks) (prologueLength hooks) instructions := by
  simp [Layout.of, placeOnto_eq]

/-- The entries of the starts are those of the instructions and their sites. -/
theorem starts_of :
    (Layout.of instructions hooks).starts
      = (startEntries instructions
          (sitesFrom (exitLength hooks) 0 (prologueLength hooks) instructions)).toArray := by
  simp [Layout.of, placeOnto_eq]

@[simp] theorem oldLength_of :
    (Layout.of instructions hooks).oldLength = Body.length instructions := rfl

end Of

/-- An instruction has one entry with its start and no start at the rest of its octets. -/
theorem startEntries_cons (i : Instruction) (site : Site) (instructions : List Instruction)
    (sites : List Site) :
    startEntries (i :: instructions) (site :: sites)
      = (some site.start :: List.replicate (i.length - 1) none)
        ++ startEntries instructions sites := rfl

/-- There is an entry exactly where an instruction starts. -/
theorem startEntries_eq_some_iff {exitLength pc newEnd old new : Nat}
    {instructions : List Instruction} :
    (startEntries instructions (sitesFrom exitLength pc newEnd instructions))[old]?
        = some (some new)
      ↔ ∃ before i after, instructions = before ++ i :: after ∧ old = Body.length before
          ∧ new = endFrom exitLength newEnd before := by
  induction instructions generalizing pc newEnd old with
  | nil => simp [startEntries]
  | cons j rest ih =>
    have hpos := j.length_pos
    rw [sitesFrom, startEntries_cons, List.getElem?_append, List.length_cons,
      List.length_replicate]
    split
    · next hlt =>
      constructor
      · intro h
        cases old with
        | zero =>
          obtain rfl : newEnd = new := by simpa [place] using h
          exact ⟨[], j, rest, rfl, rfl, rfl⟩
        | succ old =>
          rw [List.getElem?_cons_succ] at h
          exact absurd (List.eq_of_mem_replicate (List.mem_of_getElem? h)) (by simp)
      · rintro ⟨before, i, after, heq, rfl, rfl⟩
        cases before with
        | nil => simp [place, endFrom]
        | cons k more =>
          obtain rfl := (List.cons.inj heq).1
          simp only [Body.length_cons] at hlt
          omega
    · next hge =>
      rw [ih]
      constructor
      · rintro ⟨before, i, after, rfl, hold, rfl⟩
        refine ⟨j :: before, i, after, rfl, ?_, rfl⟩
        simp only [Body.length_cons]
        omega
      · rintro ⟨before, i, after, heq, rfl, rfl⟩
        cases before with
        | nil =>
          simp only [Body.length_nil] at hge
          omega
        | cons k more =>
          obtain ⟨rfl, rfl⟩ := List.cons.inj heq
          refine ⟨more, i, after, rfl, ?_, rfl⟩
          simp only [Body.length_cons]
          omega

/-- **Landing places.** An old offset has one exactly if the body can be split there, and then it
lands where the first part ends. -/
theorem map?_eq_some_iff {instructions : List Instruction} {hooks : HookRefs} {old new : Nat} :
    (Layout.of instructions hooks).map? old = some new
      ↔ ∃ before after, instructions = before ++ after ∧ old = Body.length before
          ∧ new = endFrom (exitLength hooks) (prologueLength hooks) before := by
  rw [map?, oldLength_of, newLength_of, starts_of]
  split
  · next hend =>
    constructor
    · intro h
      exact ⟨instructions, [], by simp, hend, (Option.some.inj h).symm⟩
    · rintro ⟨before, after, heq, hold, rfl⟩
      have hlength : Body.length before = Body.length instructions := hold.symm.trans hend
      rw [(Body.eq_of_length_eq (heq.symm.trans (List.append_nil _).symm) hlength).1]
  · next hne =>
    rw [List.getElem?_toArray, Option.join_eq_some_iff, startEntries_eq_some_iff]
    constructor
    · rintro ⟨before, i, after, heq, hold, hnew⟩
      exact ⟨before, i :: after, heq, hold, hnew⟩
    · rintro ⟨before, after, rfl, rfl, rfl⟩
      cases after with
      | nil => simp at hne
      | cons i after => exact ⟨before, i, after, rfl, rfl, rfl⟩

/-- One instruction more moves the end on. -/
theorem endFrom_lt_concat (exitLength newEnd : Nat) (front : List Instruction) (i : Instruction) :
    endFrom exitLength newEnd front < endFrom exitLength newEnd (front ++ [i]) := by
  rw [endFrom_append]
  exact lt_stop_place exitLength 0 _ i

/-- **Landing places** are in the order of the old offsets. -/
theorem map?_lt {instructions : List Instruction} {hooks : HookRefs} {old new old' new' : Nat}
    (h : (Layout.of instructions hooks).map? old = some new)
    (h' : (Layout.of instructions hooks).map? old' = some new') (hlt : old < old') :
    new < new' := by
  obtain ⟨front, back, heq, rfl, rfl⟩ := map?_eq_some_iff.1 h
  obtain ⟨front', back', heq', rfl, rfl⟩ := map?_eq_some_iff.1 h'
  have hfront : front <+: instructions := ⟨back, heq.symm⟩
  have hfront' : front' <+: instructions := ⟨back', heq'.symm⟩
  have hlength (front : List Instruction) (i : Instruction) :
      Body.length front < Body.length (front ++ [i]) := by
    simpa using i.length_pos
  rw [← Nat.not_le, prefix_le_iff hlength hfront' hfront] at hlt
  rwa [← Nat.not_le, prefix_le_iff (endFrom_lt_concat _ _) hfront' hfront]

/-- A site is the place of an instruction behind those in front of it, by induction on them. -/
theorem mem_sitesFrom {exitLength pc newEnd : Nat} {instructions : List Instruction} {site : Site}
    (h : site ∈ sitesFrom exitLength pc newEnd instructions) :
    ∃ before i after, instructions = before ++ i :: after
      ∧ site = place exitLength (pc + Body.length before) (endFrom exitLength newEnd before) i := by
  induction instructions generalizing pc newEnd with
  | nil => simp [sitesFrom] at h
  | cons j rest ih =>
    obtain rfl | h := List.mem_cons.1 h
    · exact ⟨[], j, rest, rfl, rfl⟩
    · obtain ⟨before, i, after, rfl, rfl⟩ := ih h
      refine ⟨j :: before, i, after, rfl, ?_⟩
      rw [Body.length_cons, ← Nat.add_assoc]
      rfl

/-- **Sites** are the landing places of the instructions. -/
theorem mem_sites_iff {instructions : List Instruction} {hooks : HookRefs} {site : Site} :
    site ∈ (Layout.of instructions hooks).sites
      ↔ ∃ before i after, instructions = before ++ i :: after
          ∧ site = place (exitLength hooks) (Body.length before)
              (endFrom (exitLength hooks) (prologueLength hooks) before) i := by
  rw [sites_of]
  constructor
  · intro h
    simpa using mem_sitesFrom h
  · rintro ⟨before, i, after, rfl, rfl⟩
    rw [sitesFrom_append]
    simp [sitesFrom]

end Layout

end AdviceWeaver

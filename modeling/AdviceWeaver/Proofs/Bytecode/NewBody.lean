import AdviceWeaver.Proofs.Bytecode.Mending

/-!
# The body with hooks

What `CodeOf.insertHooks` writes is a body again: the prologue, and every instruction with its
distances mended, a return behind the exit calls. `Rebuilt` says how such a body relates to the old
one, told by the pairs of old and new instructions alone: a place in front of, between or behind the
pairs is an offset of the old body and one of the new body, and distances and handlers are moved
from the one to the other (`HookRefs.Lands`).

## Main results

* `CodeOf.insertHooks_eq_ok_iff` — when inserting succeeds, and what is written.
* `CodeOf.hooked_of_insertHooks` — what is written is the old body rebuilt.
-/

namespace AdviceWeaver

/-! ### What is written -/

namespace HookRefs

variable (hooks : HookRefs)

/-- An instruction with the calls that run before it: those of the exit hooks, if it is a return. -/
def around (i : Instruction) : List Instruction :=
  if i.isReturn then hooks.exitCalls ++ [i] else [i]

/-- A sequence of instructions with all hook calls. -/
def weave (instructions : List Instruction) : List Instruction :=
  hooks.prologue ++ instructions.flatMap hooks.around

/-- Weaving a body in two parts has the hooks of the second part behind the first. -/
theorem weave_append (front back : List Instruction) :
    hooks.weave (front ++ back) = hooks.weave front ++ back.flatMap hooks.around := by
  simp [weave]

/-- An instruction with its calls is as much longer as the exit calls are, if it returns. -/
theorem length_around (i : Instruction) :
    Body.length (hooks.around i)
      = (if i.isReturn then Body.length hooks.exitCalls else 0) + i.length := by
  unfold around
  split <;> simp

/-- Calls of methods stand anywhere, as they need no padding. -/
theorem wellFormedFrom_calls (pc : Nat) (methods : List UInt16) :
    Body.WellFormedFrom pc (methods.map Instruction.call) := by
  induction methods generalizing pc with
  | nil => trivial
  | cons method rest ih =>
    refine ⟨?_, ih _⟩
    show Opcode.OperandsFit Opcode.invokeStatic (Bytes.ofUInt16 method)
    exact ⟨by decide, by decide, by decide, by decide, rfl⟩

/-- Padding stands anywhere. -/
theorem wellFormedFrom_nops (pc count : Nat) :
    Body.WellFormedFrom pc (List.replicate count Instruction.nop) := by
  induction count generalizing pc with
  | zero => trivial
  | succ count ih => exact ⟨⟨by decide, by decide, by decide, by decide, rfl⟩, ih _⟩

/-- The prologue is well-formed at the start of the body. -/
theorem wellFormedFrom_prologue : Body.WellFormedFrom 0 hooks.prologue := by
  rw [prologue, Body.wellFormedFrom_append]
  exact ⟨wellFormedFrom_calls 0 _, wellFormedFrom_nops _ _⟩

end HookRefs

/-- The content of a code attribute in front of its nested attributes. -/
def CodeOf.front {α : Type} (body : CodeOf α) : Bytes :=
  Bytes.ofUInt16 body.maxStack ++ Bytes.ofUInt16 body.maxLocals
    ++ Bytes.ofUInt32 (UInt32.ofNat body.code.length) ++ body.code
    ++ encodeTable ExceptionHandler.encode body.handlers

/-- The front of a code attribute is its sizes, its code and its handlers. -/
theorem CodeOf.length_front {α : Type} (body : CodeOf α) :
    body.front.length = 8 + body.code.length + (2 + 8 * body.handlers.length) := by
  simp only [front, encodeTable, List.length_append, Bytes.length_ofUInt16,
    Bytes.length_ofUInt32,
    Bytes.length_flatMap_eq ExceptionHandler.encode 8 body.handlers fun _ => rfl]

/-- The content of a code attribute whose nested attributes are given by their octets. -/
def CodeOf.encode (body : CodeOf Bytes) : Bytes :=
  body.front ++ encodeTable id body.attributes

/-- The new body is made if every site is mended, and is what the hooks make of the mended instructions.
-/
theorem Layout.body_eq_ok_iff {layout : Layout} {hooks : HookRefs}
    {instructions : List Instruction} :
    layout.body hooks = .ok instructions
      ↔ ∃ mended, List.Forall₂ (fun site m => layout.mend site = .ok m) layout.sites mended
          ∧ instructions = hooks.weave mended := by
  simp only [Layout.body, except_bind_eq_ok, mapM_eq_ok_iff, except_pure_eq_ok]
  constructor
  · rintro ⟨mended, h, rfl⟩
    exact ⟨mended, h, rfl⟩
  · rintro ⟨mended, h, rfl⟩
    exact ⟨mended, h, rfl⟩

/-- **When hooks can be inserted**, and what is written then. -/
theorem CodeOf.insertHooks_eq_ok_iff {body : Code} {classBytes out : Bytes} {hooks : HookRefs} :
    body.insertHooks classBytes hooks = .ok out
      ↔ ∃ instructions mended handlers attributes,
          Body.decode body.code = .ok instructions
          ∧ (Layout.of instructions hooks).newLength ≤ 65535
          ∧ List.Forall₂ (fun site m => (Layout.of instructions hooks).mend site = .ok m)
              (Layout.of instructions hooks).sites mended
          ∧ List.Forall₂ (fun h h' => (Layout.of instructions hooks).mapHandler h = .ok h')
              body.handlers handlers
          ∧ List.Forall₂
              (fun a octets => (Layout.of instructions hooks).mapAttribute classBytes a = .ok octets)
              (body.attributes.filter Attribute.isKept) attributes
          ∧ out = CodeOf.encode
              { body with code := Body.encode (hooks.weave mended), handlers, attributes } := by
  simp only [CodeOf.insertHooks, except_bind_eq_ok]
  constructor
  · rintro ⟨instructions, hdecode, h⟩
    split at h
    · cases h
    next hlength =>
    simp only [except_bind_eq_ok, except_pure_eq_ok, mapM_eq_ok_iff, Layout.body_eq_ok_iff] at h
    obtain ⟨code, ⟨mended, hmended, rfl⟩, handlers, hhandlers, attributes, hattributes, rfl⟩ := h
    exact ⟨instructions, mended, handlers, attributes, hdecode, Nat.not_lt.1 hlength, hmended,
      hhandlers, hattributes, rfl⟩
  · rintro ⟨instructions, mended, handlers, attributes, hdecode, hlength, hmended, hhandlers,
      hattributes, rfl⟩
    refine ⟨instructions, hdecode, ?_⟩
    rw [if_neg (Nat.not_lt.2 hlength)]
    simp only [except_bind_eq_ok, except_pure_eq_ok, mapM_eq_ok_iff, Layout.body_eq_ok_iff]
    exact ⟨_, ⟨mended, hmended, rfl⟩, handlers, hhandlers, attributes, hattributes, rfl⟩

/-! ### Places in both bodies -/

/-- An instruction of the old body and what became of it. -/
abbrev Replacement := Instruction × Instruction

/-- The offset of the old body behind some instructions. -/
def oldEnd (pairs : List Replacement) : Nat :=
  Body.length (pairs.map Prod.fst)

namespace HookRefs

variable (hooks : HookRefs)

/-- The offset of the new body behind some instructions. -/
def newEnd (pairs : List Replacement) : Nat :=
  Body.length (hooks.weave (pairs.map Prod.snd))

/-- The offset of a new instruction behind some others: the exit calls stand in front of a
return. -/
def newPc (before : List Replacement) (pair : Replacement) : Nat :=
  hooks.newEnd before + if pair.2.isReturn then Body.length hooks.exitCalls else 0

/-- Control at the offset `old` of the old body is control at the offset `new` of the new one. -/
def Lands (pairs : List Replacement) (old new : Nat) : Prop :=
  ∃ front back, pairs = front ++ back ∧ old = oldEnd front ∧ new = hooks.newEnd front

end HookRefs

@[simp] theorem oldEnd_nil : oldEnd [] = 0 := rfl

@[simp] theorem oldEnd_concat (front : List Replacement) (pair : Replacement) :
    oldEnd (front ++ [pair]) = oldEnd front + pair.1.length := by
  simp [oldEnd]

/-- The new body in two parts ends where the second part does. -/
theorem HookRefs.newEnd_append (hooks : HookRefs) (front back : List Replacement) :
    hooks.newEnd (front ++ back)
      = hooks.newEnd front + Body.length ((back.map Prod.snd).flatMap hooks.around) := by
  simp [HookRefs.newEnd, HookRefs.weave_append]

/-- One instruction more ends as far behind its own offset as it is long. -/
theorem HookRefs.newEnd_concat (hooks : HookRefs) (front : List Replacement)
    (pair : Replacement) :
    hooks.newEnd (front ++ [pair]) = hooks.newPc front pair + pair.2.length := by
  simp only [HookRefs.newEnd_append, List.map_cons, List.map_nil, List.flatMap_cons,
    List.flatMap_nil, List.append_nil, HookRefs.length_around, HookRefs.newPc]
  omega

/-- A body `new` is a body `old` with hooks, its instructions being replaced as `pairs` say. -/
structure Rebuilt {α β : Type} (hooks : HookRefs) (pairs : List Replacement) (old : CodeOf α)
    (new : CodeOf β) : Prop where
  decode_old : Body.decode old.code = .ok (pairs.map Prod.fst)
  decode_new : Body.decode new.code = .ok (hooks.weave (pairs.map Prod.snd))
  skeleton {pair : Replacement} : pair ∈ pairs → pair.2.skeleton = pair.1.skeleton
  distances {before after : List Replacement} {pair : Replacement} :
    pairs = before ++ pair :: after →
    List.Forall₂
      (fun d d' => ∃ target target', hooks.Lands pairs target target'
        ∧ (target : Int) = oldEnd before + d ∧ (target' : Int) = hooks.newPc before pair + d')
      pair.1.distances pair.2.distances
  handlers :
    List.Forall₂
      (fun h h' => hooks.Lands pairs h.start.toNat h'.start.toNat
        ∧ hooks.Lands pairs h.stop.toNat h'.stop.toNat
        ∧ hooks.Lands pairs h.handler.toNat h'.handler.toNat ∧ h.catchType = h'.catchType)
      old.handlers new.handlers

/-! ### Rebuilding -/

namespace Layout

/-- A new body that is not too large makes every offset fit in sixteen bits. -/
theorem fits_of {instructions : List Instruction} {hooks : HookRefs}
    (h : (Layout.of instructions hooks).newLength ≤ 65535) :
    (Layout.of instructions hooks).Fits where
  map?_le hmap := by
    obtain ⟨before, after, rfl, -, rfl⟩ := map?_eq_some_iff.1 hmap
    rw [newLength_of] at h
    exact Nat.le_trans (endFrom_mono (List.prefix_append ..)) h
  newPc_le hsite := by
    obtain ⟨before, i, after, rfl, rfl⟩ := mem_sites_iff.1 hsite
    rw [newLength_of, endFrom_append, endFrom] at h
    refine Nat.le_trans (Nat.le_of_lt (newPc_lt_stop _ (length_repad_pos _ i))) ?_
    exact Nat.le_trans (le_endFrom _ _ after) h

/-- What holds of every site and its new instruction holds in front of a place and behind it. -/
theorem forall₂_sitesFrom_append {R : Site → Instruction → Prop} {exitLength pc newEnd : Nat}
    {front back : List Replacement} :
    List.Forall₂ R (sitesFrom exitLength pc newEnd ((front ++ back).map Prod.fst))
        ((front ++ back).map Prod.snd)
      ↔ List.Forall₂ R (sitesFrom exitLength pc newEnd (front.map Prod.fst)) (front.map Prod.snd)
        ∧ List.Forall₂ R (sitesFrom exitLength (pc + oldEnd front)
            (endFrom exitLength newEnd (front.map Prod.fst)) (back.map Prod.fst))
            (back.map Prod.snd) := by
  induction front generalizing pc newEnd with
  | nil => simp [sitesFrom, endFrom]
  | cons pair rest ih =>
    simp only [List.cons_append, List.map_cons, sitesFrom, endFrom, List.forall₂_cons, ih,
      oldEnd, Body.length_cons, and_assoc, Nat.add_assoc, stop_place exitLength pc]

/-- Placing instructions ends where the new instructions end. -/
theorem endFrom_eq {hooks : HookRefs} {pc newEnd : Nat} {pairs : List Replacement}
    (h : List.Forall₂
      (fun site m => m.skeleton = site.instruction.skeleton
        ∧ m.length = site.instruction.length)
      (sitesFrom (exitLength hooks) pc newEnd (pairs.map Prod.fst)) (pairs.map Prod.snd)) :
    endFrom (exitLength hooks) newEnd (pairs.map Prod.fst)
      = newEnd + Body.length ((pairs.map Prod.snd).flatMap hooks.around) := by
  induction pairs generalizing pc newEnd with
  | nil => simp [endFrom]
  | cons pair rest ih =>
    simp only [List.map_cons, sitesFrom, List.forall₂_cons] at h
    obtain ⟨⟨hskeleton, hlength⟩, hrest⟩ := h
    have hreturn : pair.2.isReturn = pair.1.isReturn := by
      rw [← Instruction.isReturn_skeleton, hskeleton]
      simp [place]
    simp only [List.map_cons, endFrom, List.flatMap_cons, Body.length_append,
      HookRefs.length_around, hreturn]
    rw [← stop_place (exitLength hooks) pc, ih hrest, Site.stop, ← hlength]
    simp only [place, exitLength]
    split <;> omega

/-- Where the instruction of a pair lands. -/
theorem newPc_place {hooks : HookRefs} {before : List Replacement} {pair : Replacement}
    (h : pair.2.skeleton = pair.1.skeleton) :
    (place (exitLength hooks) (oldEnd before) (hooks.newEnd before) pair.1).newPc
      = hooks.newPc before pair := by
  have hreturn : pair.2.isReturn = pair.1.isReturn := Instruction.isReturn_eq h
  simp only [place, HookRefs.newPc, hreturn, exitLength]
  split <;> rfl

section Mended

variable {hooks : HookRefs} {pairs : List Replacement}

/-- Every pair is an instruction and what mending made of it. -/
def Mended (hooks : HookRefs) (pairs : List Replacement) : Prop :=
  ∀ before pair after, pairs = before ++ pair :: after →
    (Layout.of (pairs.map Prod.fst) hooks).Mends
      (place (exitLength hooks) (oldEnd before) (hooks.newEnd before) pair.1)
      (pair.1.repad (hooks.newPc before pair)) pair.2

/-- A body whose sites are mended one by one is mended as a whole. -/
theorem mended_of_forall₂
    (hlength : (Layout.of (pairs.map Prod.fst) hooks).newLength ≤ 65535)
    (h : List.Forall₂ (fun site m => (Layout.of (pairs.map Prod.fst) hooks).mend site = .ok m)
      (Layout.of (pairs.map Prod.fst) hooks).sites (pairs.map Prod.snd)) :
    Mended hooks pairs := by
  have hmends := ((List.forall₂_and_left _ _).2 ⟨fun _ hsite => hsite, h⟩).imp fun site m hm =>
    mends_of_mend (fits_of hlength) hm.1 hm.2
  intro before pair after hsplit
  rw [sites_of, hsplit, forall₂_sitesFrom_append] at hmends
  obtain ⟨hbefore, hrest⟩ := hmends
  have hend : endFrom (exitLength hooks) (prologueLength hooks) (before.map Prod.fst)
      = hooks.newEnd before := by
    rw [endFrom_eq (hbefore.imp fun site m hm => ⟨hm.skeleton, hm.length⟩), HookRefs.newEnd,
      HookRefs.weave, Body.length_append]
  simp only [List.map_cons, sitesFrom, List.forall₂_cons, hend, Nat.zero_add] at hrest
  have hpair := hrest.1
  rw [← hsplit] at hpair
  rwa [← newPc_place (by simpa [place] using hpair.skeleton)]

namespace Mended

variable (h : Mended hooks pairs)
include h

/-- Mending changes no more of an instruction than its distances and its padding. -/
theorem skeleton {pair : Replacement} (hmem : pair ∈ pairs) :
    pair.2.skeleton = pair.1.skeleton := by
  obtain ⟨before, after, hsplit⟩ := List.append_of_mem hmem
  simpa using (h before pair after hsplit).skeleton

/-- The end that the layout computes is the end of the new body, by induction on the instructions in
front. -/
theorem endFrom_eq {front back : List Replacement} (hsplit : pairs = front ++ back) :
    endFrom (exitLength hooks) (prologueLength hooks) (front.map Prod.fst)
      = hooks.newEnd front := by
  induction front using List.reverseRecOn generalizing back with
  | nil => simp [endFrom, HookRefs.newEnd, HookRefs.weave]
  | append_singleton front pair ih =>
    rw [List.append_assoc] at hsplit
    have hmends := h front pair back hsplit
    have hplace : (place (exitLength hooks) (oldEnd front) (hooks.newEnd front) pair.1).newPc
        = hooks.newPc front pair := newPc_place (h.skeleton (by simp [hsplit]))
    rw [List.map_append, endFrom_append, ih hsplit, HookRefs.newEnd_concat, ← hplace]
    simp only [List.map_cons, List.map_nil, endFrom, Site.stop, hmends.length]
    rw [← hplace]
    rfl

/-- Old offsets are mapped to where control lands. -/
theorem map?_eq_some_iff {old new : Nat} :
    (Layout.of (pairs.map Prod.fst) hooks).map? old = some new ↔ hooks.Lands pairs old new := by
  rw [Layout.map?_eq_some_iff]
  constructor
  · rintro ⟨before, after, hsplit, rfl, rfl⟩
    obtain ⟨front, back, hpairs, rfl, rfl⟩ := List.map_eq_append_iff.1 hsplit
    exact ⟨front, back, hpairs, rfl, h.endFrom_eq hpairs⟩
  · rintro ⟨front, back, hpairs, rfl, rfl⟩
    refine ⟨front.map Prod.fst, back.map Prod.fst, ?_, rfl, (h.endFrom_eq hpairs).symm⟩
    rw [hpairs, List.map_append]

/-- A distance of the new instruction leads to where control at the old target lands. -/
theorem distances {before after : List Replacement} {pair : Replacement}
    (hsplit : pairs = before ++ pair :: after) :
    List.Forall₂
      (fun d d' => ∃ target target', hooks.Lands pairs target target'
        ∧ (target : Int) = oldEnd before + d ∧ (target' : Int) = hooks.newPc before pair + d')
      pair.1.distances pair.2.distances := by
  have hmends := (h before pair after hsplit).distances
  rw [Instruction.distances_repad] at hmends
  refine hmends.imp ?_
  rintro d d' ⟨target, target', hmap, -, htarget, htarget'⟩
  rw [newPc_place (h.skeleton (by simp [hsplit]))] at htarget'
  exact ⟨target, target', h.map?_eq_some_iff.1 hmap, htarget, htarget'⟩

/-- The new instructions can stand where they land. -/
theorem wellFormed (hwf : Body.WellFormedFrom 0 (pairs.map Prod.fst)) :
    Body.WellFormedFrom 0 (hooks.weave (pairs.map Prod.snd)) := by
  suffices hfront : ∀ front back, pairs = front ++ back →
      Body.WellFormedFrom 0 (hooks.weave (front.map Prod.snd)) from
    hfront pairs [] (List.append_nil pairs).symm
  intro front back hsplit
  induction front using List.reverseRecOn generalizing back with
  | nil => simpa [HookRefs.weave] using hooks.wellFormedFrom_prologue
  | append_singleton front pair ih =>
    rw [List.append_assoc] at hsplit
    have hmends := h front pair back hsplit
    rw [hsplit, List.map_append, Body.wellFormedFrom_append] at hwf
    have hpair : pair.2.WellFormedAt (hooks.newPc front pair) :=
      hmends.wellFormedAt (Instruction.wellFormedAt_repad hwf.2.1 _)
    rw [List.map_append, HookRefs.weave_append, Body.wellFormedFrom_append]
    refine ⟨ih _ hsplit, ?_⟩
    have hpc : 0 + Body.length (hooks.weave (front.map Prod.snd)) = hooks.newEnd front := by
      simp [HookRefs.newEnd]
    rw [hpc]
    simp only [HookRefs.newPc] at hpair
    simp only [List.map_cons, List.map_nil, List.flatMap_cons, List.flatMap_nil, List.append_nil,
      HookRefs.around]
    split
    · next hreturn =>
      rw [if_pos hreturn] at hpair
      rw [Body.wellFormedFrom_append]
      exact ⟨HookRefs.wellFormedFrom_calls _ _, hpair, trivial⟩
    · next hreturn =>
      rw [if_neg hreturn] at hpair
      exact ⟨hpair, trivial⟩

end Mended

end Mended

/-- A mapped offset fits in sixteen bits, so the map and the mapping agree. -/
theorem map?_of_map {layout : Layout} (hfits : layout.Fits) {at_ : Nat} {old new : UInt16}
    (h : layout.map at_ old = .ok new) : layout.map? old.toNat = some new.toNat := by
  simp only [Layout.map] at h
  split at h
  · next target htarget =>
    cases h
    have hle := hfits.map?_le htarget
    rw [htarget, UInt16.toNat_ofNat_of_lt' (by simpa [UInt16.size] using Nat.lt_succ_of_le hle)]
  · cases h

/-- What an offset is mapped to is where control lands. -/
theorem lands_of_map {hooks : HookRefs} {pairs : List Replacement} (h : Mended hooks pairs)
    (hlength : (Layout.of (pairs.map Prod.fst) hooks).newLength ≤ 65535) {at_ : Nat}
    {old new : UInt16} (hmap : (Layout.of (pairs.map Prod.fst) hooks).map at_ old = .ok new) :
    hooks.Lands pairs old.toNat new.toNat :=
  h.map?_eq_some_iff.1 (map?_of_map (fits_of hlength) hmap)

end Layout

/-- The body `new` is what is written for `body` with hooks, its instructions being replaced as
`pairs` say. -/
structure CodeOf.Hooked (classBytes : Bytes) (hooks : HookRefs) (pairs : List Replacement)
    (body : Code) (new : CodeOf Bytes) : Prop where
  rebuilt : Rebuilt hooks pairs body new
  mended : Layout.Mended hooks pairs
  mends :
    List.Forall₂ (fun site m => (Layout.of (pairs.map Prod.fst) hooks).mend site = .ok m)
      (Layout.of (pairs.map Prod.fst) hooks).sites (pairs.map Prod.snd)
  length : new.code.length ≤ 65535
  newLength : (Layout.of (pairs.map Prod.fst) hooks).newLength ≤ 65535
  maxStack : new.maxStack = body.maxStack
  maxLocals : new.maxLocals = body.maxLocals
  attributes :
    List.Forall₂
      (fun a octets =>
        (Layout.of (pairs.map Prod.fst) hooks).mapAttribute classBytes a = .ok octets)
      (body.attributes.filter Attribute.isKept) new.attributes

/-- **What is written is a body** that is the old one rebuilt: every instruction is where the layout
placed it, and every distance and every handler leads to where the old target landed. -/
theorem CodeOf.hooked_of_insertHooks {body : Code} {classBytes out : Bytes} {hooks : HookRefs}
    (h : body.insertHooks classBytes hooks = .ok out) :
    ∃ (pairs : List Replacement) (new : CodeOf Bytes),
      out = new.encode ∧ Hooked classBytes hooks pairs body new := by
  obtain ⟨instructions, mended, handlers, attributes, hdecode, hlength, hmended, hhandlers,
    hattributes, rfl⟩ := CodeOf.insertHooks_eq_ok_iff.1 h
  have hcount : instructions.length = mended.length := by
    simpa [Layout.sites_of] using hmended.length_eq
  obtain ⟨pairs, rfl, rfl⟩ : ∃ pairs : List Replacement,
      pairs.map Prod.fst = instructions ∧ pairs.map Prod.snd = mended :=
    ⟨instructions.zip mended, List.map_fst_zip (Nat.le_of_eq hcount),
      List.map_snd_zip (Nat.le_of_eq hcount.symm)⟩
  have hpairs := Layout.mended_of_forall₂ hlength hmended
  have hlength' := hlength
  rw [Layout.newLength_of, hpairs.endFrom_eq (List.append_nil pairs).symm,
    HookRefs.newEnd, ← Body.length_encode] at hlength'
  refine ⟨pairs, _, rfl, ?_, hpairs, hmended, hlength', hlength, rfl, rfl, hattributes⟩
  refine ⟨hdecode, ?_, hpairs.skeleton, hpairs.distances, hhandlers.imp ?_⟩
  · exact Body.decode_eq_ok_iff.2 ⟨hpairs.wellFormed (Body.decode_eq_ok_iff.1 hdecode).1, rfl⟩
  · intro handler handler' hmap
    simp only [Layout.mapHandler, except_bind_eq_ok, except_pure_eq_ok] at hmap
    obtain ⟨start, hstart, stop, hstop, target, htarget, rfl⟩ := hmap
    exact ⟨Layout.lands_of_map hpairs hlength hstart, Layout.lands_of_map hpairs hlength hstop,
      Layout.lands_of_map hpairs hlength htarget, rfl⟩

end AdviceWeaver

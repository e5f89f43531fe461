import AdviceWeaver.Proofs.Bytecode.Retargeting
import AdviceWeaver.Proofs.Weaving.Refusals

/-!
# Bodies with hooks at their entry only

Without exit hooks every instruction moves by the length of what is put in front of the body. This is
a multiple of four, so that a switch needs as much padding as before, and no instruction changes its
length. Then no distance changes either: a body with enter hooks is the calls, and behind them the old
body as it was, but for the padding of switches, which is zeros (`CodeOf.Shifted`).

## Main results

* `Layout.endFrom_shift` — where instructions land when they move by a multiple of four.
* `CodeOf.shifts_insertHooks` — what is written for a body with enter hooks, and when it is refused.
-/

namespace AdviceWeaver

/-! ### Padding -/

/-- The instruction with zeros as padding. -/
def Instruction.clearPadding : Instruction → Instruction
  | .tableSwitch padding default low high distances =>
    .tableSwitch (List.replicate padding.length 0) default low high distances
  | .lookupSwitch padding default cases =>
    .lookupSwitch (List.replicate padding.length 0) default cases
  | i => i

/-- A multiple of four leaves the padding of a switch as it is. -/
theorem switchPadding_add {shift : Nat} (h : 4 ∣ shift) (pc : Nat) :
    switchPadding (pc + shift) = switchPadding pc := by
  unfold switchPadding
  omega

/-- An instruction that is shifted by a multiple of four only gets zeros for its padding. -/
theorem Instruction.repad_eq_clearPadding {shift pc : Nat} {i : Instruction} (h : 4 ∣ shift)
    (hwf : i.WellFormedAt pc) : i.repad (pc + shift) = i.clearPadding := by
  cases i with
  | tableSwitch | lookupSwitch => rw [repad, clearPadding, switchPadding_add h, hwf.1]
  | _ => rfl

@[simp] theorem Instruction.length_clearPadding (i : Instruction) :
    i.clearPadding.length = i.length := by
  cases i <;> simp [clearPadding, length]

/-! ### What is put in front -/

/-- The octets of `count` calls, and of what brings them to a multiple of four. -/
def enterLength (count : Nat) : Nat :=
  (3 * count + 3) / 4 * 4

theorem four_dvd_enterLength (count : Nat) : 4 ∣ enterLength count :=
  Nat.dvd_mul_left 4 _

/-- A padding instruction takes one octet. -/
theorem Body.length_nops (count : Nat) :
    Body.length (List.replicate count Instruction.nop) = count := by
  induction count with
  | zero => rfl
  | succ count ih =>
    rw [List.replicate_succ, Body.length_cons, ih, Nat.add_comm]
    rfl

namespace HookRefs

/-- The prologue is as long as its calls, brought to a multiple of four. -/
theorem length_prologue (hooks : HookRefs) :
    Body.length hooks.prologue = enterLength hooks.enter.length := by
  rw [prologue, Body.length_append, length_enterCalls, Body.length_nops, enterLength]
  omega

/-- The prologue is written as its calls and then its padding. -/
theorem encode_prologue (hooks : HookRefs) :
    Body.encode hooks.prologue
      = hooks.enter.flatMap (fun method => Opcode.invokeStatic :: Bytes.ofUInt16 method)
        ++ List.replicate (enterLength hooks.enter.length - 3 * hooks.enter.length) Opcode.nop := by
  have hcount : (4 - 3 * hooks.enter.length % 4) % 4
      = enterLength hooks.enter.length - 3 * hooks.enter.length := by
    unfold enterLength
    omega
  rw [prologue, hcount, Body.encode, List.flatMap_append, List.flatMap_map]
  congr 1
  generalize enterLength hooks.enter.length - 3 * hooks.enter.length = count
  induction count with
  | zero => rfl
  | succ count ih => rw [List.replicate_succ, List.flatMap_cons, ih]; rfl

/-- Without exit hooks, nothing is put in front of returns. -/
theorem weave_enter (enter : List UInt16) (instructions : List Instruction) :
    weave ⟨enter, []⟩ instructions = prologue ⟨enter, []⟩ ++ instructions := by
  have haround : around ⟨enter, []⟩ = fun i => [i] := by
    funext i
    rw [around, exitCalls, List.map_nil, List.nil_append, ite_self]
  rw [weave, haround, List.flatMap_singleton']

end HookRefs

/-! ### Landing places -/

namespace Layout

/-- **Instructions that move by a multiple of four** keep their lengths, so all of them move by as
much. -/
theorem endFrom_shift {shift pc : Nat} {instructions : List Instruction} (h : 4 ∣ shift)
    (hwf : Body.WellFormedFrom pc instructions) :
    endFrom 0 (pc + shift) instructions = pc + Body.length instructions + shift := by
  induction instructions generalizing pc with
  | nil => rfl
  | cons i rest ih =>
    -- the invariant is that the new end is `shift` behind the old one, in front of every instruction
    have hstop : (place 0 0 (pc + shift) i).stop = pc + i.length + shift := by
      simp only [place, Site.stop, Nat.add_zero, ite_self, Instruction.repad_eq_clearPadding h hwf.1,
        Instruction.length_clearPadding]
      omega
    rw [endFrom, hstop, ih hwf.2, Body.length_cons]
    omega

section Enter

variable {enter : List UInt16} {instructions : List Instruction}
  (hwf : Body.WellFormedFrom 0 instructions)
include hwf

/-- Without exit calls a place is shifted by the prologue. -/
theorem endFrom_enter {before after : List Instruction} (hsplit : instructions = before ++ after) :
    endFrom (exitLength ⟨enter, []⟩) (prologueLength ⟨enter, []⟩) before
      = Body.length before + enterLength enter.length := by
  rw [hsplit, Body.wellFormedFrom_append] at hwf
  have hshift := endFrom_shift (four_dvd_enterLength enter.length) hwf.1
  rw [Nat.zero_add, Nat.zero_add] at hshift
  rw [prologueLength, HookRefs.length_prologue]
  exact hshift

/-- Without exit calls the body grows by the prologue. -/
theorem newLength_enter :
    (Layout.of instructions ⟨enter, []⟩).newLength
      = Body.length instructions + enterLength enter.length := by
  rw [newLength_of, endFrom_enter hwf (List.append_nil _).symm]

/-- Without exit calls an offset is mapped to the one behind it by the prologue. -/
theorem map?_enter {old new : Nat} (h : (Layout.of instructions ⟨enter, []⟩).map? old = some new) :
    new = old + enterLength enter.length := by
  obtain ⟨before, after, hsplit, rfl, rfl⟩ := map?_eq_some_iff.1 h
  exact endFrom_enter hwf hsplit

/-- Without exit calls an instruction is placed behind its old place by the prologue. -/
theorem newPc_enter {site : Site} (h : site ∈ (Layout.of instructions ⟨enter, []⟩).sites) :
    site.newPc = site.pc + enterLength enter.length := by
  obtain ⟨before, i, after, hsplit, rfl⟩ := mem_sites_iff.1 h
  rw [endFrom_enter hwf hsplit]
  exact ite_self _

/-- Distances stay what they are. -/
theorem relocates_enter {site : Site} {d d' : Int}
    (hsite : site ∈ (Layout.of instructions ⟨enter, []⟩).sites)
    (h : (Layout.of instructions ⟨enter, []⟩).Relocates site d d') : d = d' := by
  obtain ⟨old, new, hmap, -, hold, hnew⟩ := h
  have hshift := map?_enter hwf hmap
  have hpc := newPc_enter hwf hsite
  omega

/-- A short branch is as short as it was. -/
theorem reaches_enter {site : Site} (hsite : site ∈ (Layout.of instructions ⟨enter, []⟩).sites) :
    (Layout.of instructions ⟨enter, []⟩).Reaches site := by
  intro op d new _ hnew
  obtain ⟨old, hmap, -, hold⟩ := mapTarget_eq_ok_iff.1 hnew
  have hshift := map?_enter hwf hmap
  have hpc := newPc_enter hwf hsite
  have hlow := d.le_toInt
  have hhigh := d.toInt_lt
  omega

end Enter

end Layout

/-! ### Bodies -/

/-- The variable entry `e'` is `e` for a range as long, `shift` octets behind. -/
structure VariableEntry.Shifted (shift : Nat) (e e' : VariableEntry) : Prop where
  start : e'.start.toNat = e.start.toNat + shift
  length : e'.length = e.length
  name : e'.name = e.name
  descriptor : e'.descriptor = e.descriptor
  slot : e'.slot = e.slot

/-- The body `new` is `body` behind the calls of enter hooks: the same octets but for the padding of
switches, and the same tables but for offsets, which grow by as much as stands in front. -/
structure CodeOf.Shifted (classBytes : Bytes) (enter : List UInt16) (instructions : List Instruction)
    (body : Code) (new : CodeOf NewAttribute) : Prop where
  decode : Body.decode body.code = .ok instructions
  encode : body.code = Body.encode instructions
  code : new.code
    = enter.flatMap (fun method => Opcode.invokeStatic :: Bytes.ofUInt16 method)
      ++ List.replicate (enterLength enter.length - 3 * enter.length) Opcode.nop
      ++ Body.encode (instructions.map Instruction.clearPadding)
  maxStack : new.maxStack = body.maxStack
  maxLocals : new.maxLocals = body.maxLocals
  handlers :
    List.Forall₂ (ExceptionHandler.Moved fun old new => new = old + enterLength enter.length)
      body.handlers new.handlers
  attributes :
    List.Forall₂
      (Attribute.Rewritten classBytes (fun old new => new = old + enterLength enter.length)
        (VariableEntry.Shifted (enterLength enter.length)))
      (body.attributes.filter Attribute.isKept) new.attributes

/-- A variable whose start and end moved by the shift has kept its length. -/
theorem VariableEntry.Moved.shifted {shift : Nat} {e e' : VariableEntry}
    (h : e.Moved (fun old new => new = old + shift) e') : e.Shifted shift e' where
  start := h.start
  length := by
    have hstart := h.start
    have hstop := h.stop
    simp only [VariableEntry.stop] at hstop
    rw [← UInt16.toNat_inj]
    omega
  name := h.name
  descriptor := h.descriptor
  slot := h.slot

section Enter

variable {enter : List UInt16} {pairs : List Replacement} {body : Code}
  {new : CodeOf NewAttribute} {classBytes : Bytes}
  (h : body.Rewrites classBytes ⟨enter, []⟩ pairs new)
include h

/-- Without exit calls control lands where it did, shifted by the prologue. -/
theorem CodeOf.Rewrites.lands_enter {old new' : Nat}
    (hlands : HookRefs.Lands ⟨enter, []⟩ pairs old new') : new' = old + enterLength enter.length :=
  Layout.map?_enter (Body.decode_eq_ok_iff.1 h.rebuilt.decode_old).1
    (h.mended.map?_eq_some_iff.2 hlands)

/-- New instructions are the old ones with zeros as padding. -/
theorem CodeOf.Rewrites.instructions_enter :
    pairs.map Prod.snd = (pairs.map Prod.fst).map Instruction.clearPadding := by
  have hwf := (Body.decode_eq_ok_iff.1 h.rebuilt.decode_old).1
  rw [List.map_map]
  refine List.map_congr_left fun pair hmem => ?_
  obtain ⟨before, after, hsplit⟩ := List.append_of_mem hmem
  have hsite := Layout.mem_sites_place h.mended hsplit
  have hretargeted := Layout.retargeted_of_mend (Layout.fits_of h.newLength) hsite
    (Layout.mend_place h.mended h.mends hsplit)
  rw [hretargeted.eq_of_leads fun d d' => Layout.relocates_enter hwf hsite]
  -- it is padded for where it lands, which asks for as much as where it stood
  have hpc := Layout.newPc_enter hwf hsite
  have hat : pair.1.WellFormedAt (oldEnd before) := by
    rw [hsplit, List.map_append, Body.wellFormedFrom_append, Nat.zero_add] at hwf
    exact hwf.2.1
  simp only [Layout.place] at hpc ⊢
  rw [hpc]
  exact Instruction.repad_eq_clearPadding (four_dvd_enterLength enter.length) hat

/-- **A body that was rewritten without exit calls** is the old one behind a prologue. -/
theorem CodeOf.Rewrites.shifted : Shifted classBytes enter (pairs.map Prod.fst) body new where
  decode := h.rebuilt.decode_old
  encode := (Body.encode_of_decode h.rebuilt.decode_old).symm
  code := by
    rw [← Body.encode_of_decode h.rebuilt.decode_new, HookRefs.weave_enter, h.instructions_enter,
      Body.encode, List.flatMap_append]
    exact congrArg (· ++ _) (HookRefs.encode_prologue ⟨enter, []⟩)
  maxStack := h.maxStack
  maxLocals := h.maxLocals
  handlers := h.rebuilt.handlers_moved.imp fun _ _ hh => hh.mono fun _ _ => h.lands_enter
  attributes := h.attributes.imp fun _ _ ha => ha.mono (fun _ _ => h.lands_enter)
    fun _ _ he => (he.mono fun _ _ => h.lands_enter).shifted

end Enter

/-- **Enter hooks shift a body**, and leave it as it is otherwise. No branch becomes too long, and the
body is refused as too large only if it does not fit behind the calls. -/
theorem CodeOf.shifts_insertHooks (body : Code) (classBytes : Bytes) (enter : List UInt16) :
    (∀ out, body.insertHooks classBytes ⟨enter, []⟩ = .ok out →
        ∃ (instructions : List Instruction) (new : CodeOf NewAttribute),
          out = new.write ∧ Shifted classBytes enter instructions body new)
      ∧ (∀ pc, body.insertHooks classBytes ⟨enter, []⟩ ≠ .error (.branchOverflow pc))
      ∧ ∀ length, body.insertHooks classBytes ⟨enter, []⟩ = .error (.codeTooLarge length) →
          65535 < body.code.length + enterLength enter.length := by
  refine ⟨fun out hout => ?_, fun pc herror => ?_, fun length herror => ?_⟩
  · obtain ⟨pairs, new, rfl, hnew⟩ := CodeOf.rewrites_of_insertHooks hout
    exact ⟨_, new, rfl, hnew.shifted⟩
  · obtain ⟨instructions, hdecode, ⟨-, hne⟩ | ⟨site, hsite, hshort, -⟩⟩ :=
      (CodeOf.refused_of_insertHooks herror).growth rfl
    · cases hne
    · exact hshort (Layout.reaches_enter (Body.decode_eq_ok_iff.1 hdecode).1 hsite)
  · obtain ⟨instructions, hdecode, ⟨hlarge, -⟩ | ⟨_, -, -, hne⟩⟩ :=
      (CodeOf.refused_of_insertHooks herror).growth rfl
    · rwa [Layout.newLength_enter (Body.decode_eq_ok_iff.1 hdecode).1,
        Body.length_of_decode hdecode] at hlarge
    · cases hne

/-- Two calls and two octets of nothing stand in front, and of the old octets only the padding of the
switch has changed. -/
theorem switchBody_shifts :
    ∃ out, switchBody.insertHooks [] ⟨[5, 6], []⟩ = .ok out
      ∧ ∃ (instructions : List Instruction) (new : CodeOf NewAttribute),
          out = new.write ∧ CodeOf.Shifted [] [5, 6] instructions switchBody new := by
  have hout : switchBody.insertHooks [] ⟨[5, 6], []⟩ = .ok
      ([0, 1, 0, 1, 0, 0, 0, 33] ++ [184, 0, 5, 184, 0, 6, 0, 0] ++ [26, 153, 0, 4, 177, 26]
        ++ [171, 0, 0, 0, 0, 18, 0, 0, 0, 1, 0, 0, 0, 7, 255, 255, 255, 254, 177]
        ++ [0, 1, 0, 8, 0, 32, 0, 32, 0, 9] ++ [0, 0]) := by
    decide +kernel
  exact ⟨_, hout, (CodeOf.shifts_insertHooks switchBody [] [5, 6]).1 _ hout⟩

end AdviceWeaver

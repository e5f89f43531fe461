import AdviceWeaver.Proofs.Bytecode.Simulation
import AdviceWeaver.Proofs.ClassFile.Bodies
import AdviceWeaver.Proofs.Weaving.NewAttributes

/-!
# Frames follow their instructions

A stack map table that is written for a body with hooks is read back as the old table, moved: the
same frames in the same order, each in front of the instruction it stood in front of, or of the exit
calls of this. As frames of one table stand at different offsets, the target of a jump or of a
handler keeps the frame it had (`StackFrame.Follows`).

## Main results

* `StackFrame.TableMoved.follows` — what moves with a table finds its frame again.
* `CodeOf.reframes_insertHooks` — every stack map table of a body of a class.
-/

namespace AdviceWeaver

/-! ### Frames at offsets -/

namespace StackFrame

variable {R : Nat → Nat → Prop} {next offset : Nat} {frames frames' : List StackFrame}
  {frame frame' : StackFrame}

/-- No frame is placed in front of where the placing begins. -/
theorem le_of_mem_placedFrom (h : (offset, frame) ∈ placedFrom next frames) : next ≤ offset := by
  induction frames generalizing next with
  | nil => cases h
  | cons first rest ih =>
    obtain heq | h := List.mem_cons.1 h
    · exact (Prod.mk.inj heq).1 ▸ Nat.le_add_right ..
    · have hle := ih h
      omega

/-- **Frames of one table** stand at different offsets. -/
theorem eq_of_mem_placedFrom (h : (offset, frame) ∈ placedFrom next frames)
    (h' : (offset, frame') ∈ placedFrom next frames) : frame = frame' := by
  induction frames generalizing next with
  | nil => cases h
  | cons first rest ih =>
    -- a later frame stands behind the first one
    have hbehind {f : StackFrame}
        (hf : (offset, f) ∈ placedFrom (next + first.delta.toNat + 1) rest) :
        offset ≠ next + first.delta.toNat := by
      have hle := le_of_mem_placedFrom hf
      omega
    obtain heq | h := List.mem_cons.1 h
    · obtain heq' | h' := List.mem_cons.1 h'
      · exact (Prod.mk.inj heq).2.trans (Prod.mk.inj heq').2.symm
      · exact absurd (Prod.mk.inj heq).1 (hbehind h')
    · obtain heq' | h' := List.mem_cons.1 h'
      · exact absurd (Prod.mk.inj heq').1 (hbehind h)
      · exact ih h h'

/-- As many frames are placed as there are. -/
theorem length_placedFrom (next : Nat) (frames : List StackFrame) :
    (placedFrom next frames).length = frames.length := by
  induction frames generalizing next with
  | nil => rfl
  | cons frame rest ih => simp [placedFrom, ih]

/-- Of a frame at `target` in one table, the other table has exactly the moved form at `target'`. -/
def Follows (R : Nat → Nat → Prop) (frames frames' : List StackFrame) (target target' : Nat) : Prop :=
  ∀ frame, (target, frame) ∈ placedFrom 0 frames →
    ∃ frame', Moved R (target, frame) (target', frame')
      ∧ ∀ other, (target', other) ∈ placedFrom 0 frames' ↔ other = frame'

namespace TableMoved

/-- A table that moved has as many frames. -/
theorem length_eq (h : TableMoved R frames frames') : frames'.length = frames.length := by
  rw [← length_placedFrom 0 frames, ← length_placedFrom 0 frames']
  exact (List.Forall₂.length_eq h).symm

/-- **What moves with a table** finds its frame again. -/
theorem follows (h : TableMoved R frames frames')
    (hunique : ∀ old new new', R old new → R old new' → new = new') {target target' : Nat}
    (htarget : R target target') : Follows R frames frames' target target' := by
  intro frame hframe
  obtain ⟨⟨place, frame'⟩, hframe', hmoved⟩ := exists_of_forall₂_left h hframe
  obtain rfl : place = target' := hunique _ _ _ hmoved.offset htarget
  refine ⟨frame', hmoved, fun other => ⟨fun hother => eq_of_mem_placedFrom hother hframe', ?_⟩⟩
  rintro rfl
  exact hframe'

end TableMoved

/-- **A written table** is read back. -/
theorem counted_encodeTable (hcount : frames.length < 65536)
    (hwritable : ∀ frame ∈ frames, frame.Writable) (offset : Nat) :
    Reader.counted Reader.stackFrame ⟨offset, encodeTable encode frames⟩
      = .ok (frames, ⟨offset + (encodeTable encode frames).length, []⟩) := by
  have htakes := Reader.takes_encodeTable hcount
    (fun frame hframe => Reader.takes_stackFrame (hwritable frame hframe)) offset
  simpa using htakes []

end StackFrame

/-! ### The frames of a body with hooks -/

/-- The table `frames'` is what became of `frames`: the frames moved as control lands, and each
target of an instruction or of a handler has the frame that it had. -/
structure HookRefs.FramesFollow (hooks : HookRefs) (pairs : List Replacement) (body : Code)
    (new : CodeOf NewAttribute) (frames frames' : List StackFrame) : Prop where
  length : frames'.length = frames.length
  moved : StackFrame.TableMoved (hooks.Lands pairs) frames frames'
  targets {before after : List Replacement} {pair : Replacement} :
    pairs = before ++ pair :: after →
    List.Forall₂
      (fun d d' => ∃ target target', hooks.Lands pairs target target'
        ∧ (target : Int) = oldEnd before + d ∧ (target' : Int) = hooks.newPc before pair + d'
        ∧ StackFrame.Follows (hooks.Lands pairs) frames frames' target target')
      pair.1.distances pair.2.distances
  handlers :
    List.Forall₂
      (fun h h' => hooks.Lands pairs h.handler.toNat h'.handler.toNat
        ∧ StackFrame.Follows (hooks.Lands pairs) frames frames' h.handler.toNat h'.handler.toNat)
      body.handlers new.handlers

/-- The body `new` is `body` with hooks, and what it has for a stack map table is read back as what
became of its frames. -/
structure CodeOf.Reframes (hooks : HookRefs) (pairs : List Replacement) (body : Code)
    (new : CodeOf NewAttribute) : Prop where
  decode_old : Body.decode body.code = .ok (pairs.map Prod.fst)
  decode_new : Body.decode new.code = .ok (hooks.weave (pairs.map Prod.snd))
  tables :
    List.Forall₂
      (fun a a' => ∀ frames, a.content = .stackMapTable frames →
        ∃ content frames', a'.encode = encodeAttribute a.name content
          ∧ (∀ offset, Reader.counted Reader.stackFrame ⟨offset, content⟩
              = .ok (frames', ⟨offset + content.length, []⟩))
          ∧ hooks.FramesFollow pairs body new frames frames')
      (body.attributes.filter Attribute.isKept) new.attributes

/-- Tables that are moved as control lands have the frames of all targets. -/
theorem Rebuilt.framesFollow {hooks : HookRefs} {pairs : List Replacement} {body : Code}
    {new : CodeOf NewAttribute} (h : Rebuilt hooks pairs body new)
    {frames frames' : List StackFrame}
    (hmoved : StackFrame.TableMoved (hooks.Lands pairs) frames frames') :
    hooks.FramesFollow pairs body new frames frames' := by
  have hfollows {target target' : Nat} (hlands : hooks.Lands pairs target target') :=
    hmoved.follows (fun _ _ _ => HookRefs.Lands.new_unique) hlands
  refine ⟨hmoved.length_eq, hmoved, fun hsplit => (h.distances hsplit).imp ?_,
    h.handlers_moved.imp fun _ _ hh => ⟨hh.handler, hfollows hh.handler⟩⟩
  rintro d d' ⟨target, target', hlands, htarget, htarget'⟩
  exact ⟨target, target', hlands, htarget, htarget', hfollows hlands⟩

/-- **The frames of a body** of a class follow its instructions when hooks are inserted. -/
theorem CodeOf.reframes_insertHooks {bytes out : Bytes} {c : ClassFile} {body : Code}
    {hooks : HookRefs} (hread : ClassFile.read bytes = .ok c) (hbody : c.HasBody body)
    (h : body.insertHooks bytes hooks = .ok out) :
    ∃ (pairs : List Replacement) (new : CodeOf NewAttribute),
      out = new.write ∧ Reframes hooks pairs body new := by
  obtain ⟨pairs, new, rfl, hnew⟩ := CodeOf.rewrites_of_insertHooks h
  refine ⟨pairs, new, rfl, hnew.rebuilt.decode_old, hnew.rebuilt.decode_new, ?_⟩
  refine ((List.forall₂_and_left _ _).2 ⟨fun _ ha => ha, hnew.attributes⟩).imp ?_
  rintro a a' ⟨ha, hrewritten⟩ frames hframes
  have hold := (ClassFile.readFrom_of_hasBody hread hbody a (List.mem_of_mem_filter ha)).writable
    hframes
  cases hrewritten with
  | @frameTable name span frames₁ frames' hmoved hwritable =>
    obtain rfl : frames₁ = frames := by simpa using hframes
    refine ⟨_, frames', rfl, ?_, hnew.rebuilt.framesFollow hmoved⟩
    exact StackFrame.counted_encodeTable (hmoved.length_eq ▸ hold.1) (hwritable hold.2)
  | copied htable =>
    obtain rfl : _ = ContentOf.stackMapTable frames := hframes
    cases htable
  | _ => cases hframes

/-- Sixteen calls in front of the body move its first frame by 48 octets, and the call in front of the
return there is behind the frame: its distance becomes too long for the short kind. -/
theorem selecting_reframes :
    ∃ (c : ClassFile) (body : Code) (out : Bytes),
      ClassFile.read ClassFile.selecting = .ok c ∧ c.HasBody body
        ∧ frameTables body.attributes
          = [[.same 20, .oneItem 0 (.object 2), .append 3 [.uninitialized 21]]]
        ∧ body.insertHooks ClassFile.selecting ⟨List.replicate 16 5, [6]⟩ = .ok out
        ∧ ∃ (pairs : List Replacement) (new : CodeOf NewAttribute),
            out = new.write ∧ CodeOf.Reframes ⟨List.replicate 16 5, [6]⟩ pairs body new := by
  have hany : ClassFile.anyBody ClassFile.selecting (fun body =>
      frameTables body.attributes
          = [[.same 20, .oneItem 0 (.object 2), .append 3 [.uninitialized 21]]]
        && (body.insertHooks ClassFile.selecting ⟨List.replicate 16 5, [6]⟩).isOk) = true := by
    decide +kernel
  obtain ⟨c, body, hread, hbody, htest⟩ := ClassFile.exists_of_anyBody hany
  rw [Bool.and_eq_true, decide_eq_true_eq] at htest
  obtain ⟨hframes, hinserts⟩ := htest
  obtain ⟨out, hout⟩ := exists_of_isOk hinserts
  exact ⟨c, body, out, hread, hbody, hframes, hout, CodeOf.reframes_insertHooks hread hbody hout⟩

end AdviceWeaver

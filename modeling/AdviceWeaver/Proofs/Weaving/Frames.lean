import AdviceWeaver.Proofs.Bytecode.Moving
import AdviceWeaver.Proofs.Bytecode.NewBody
import AdviceWeaver.Proofs.ClassFile.Tables

/-!
# Stack map frames in the new body

A frame is brought to its new distance by `StackFrame.fit` and stays one that can be written. Only a
frame that is moved 64 octets or more from the one before it can take more octets than it did, so a
table grows by little, however many frames it has.

## Main results

* `Layout.mapFrames_spec` — new frames are as many as the old ones and can be written, and how many
  octets more they take.
* `Layout.mapFrames_moved` — new frames are the old ones, moved as the layout moves offsets.
-/

namespace AdviceWeaver

/-! ### Single frames -/

namespace StackFrame

variable {delta : UInt16} {frame : StackFrame}

/-- A frame whose delta is changed can be written, in the long form if the short one has no room for it.
-/
theorem writable_fit (h : frame.Writable) (delta : UInt16) : (frame.fit delta).Writable := by
  cases frame with
  | same | oneItem | oneItemExtended =>
    simp only [fit]
    split
    · assumption
    · exact trivial
  | sameExtended => exact trivial
  | chop | append | full => exact h

/-- A frame grows by the two octets of a distance that has become too long for its kind. -/
theorem length_fit_le (frame : StackFrame) (delta : UInt16) :
    (frame.fit delta).encode.length
      ≤ frame.encode.length + if delta.toNat ≤ 63 then 0 else 2 := by
  cases frame with
  | same | oneItem | oneItemExtended =>
    simp only [fit, UInt16.le_iff_toNat_le, UInt16.reduceToNat]
    split <;> simp [encode] <;> omega
  | chop | append | full | sameExtended => simp [fit, encode]

end StackFrame

namespace Layout

variable {layout : Layout}

/-- A verification type that is mapped has the same length. -/
theorem length_mapType {type type' : VerificationType} (h : layout.mapType type = .ok type') :
    type'.encode.length = type.encode.length := by
  cases type with
  | uninitialized pc =>
    simp only [mapType, except_bind_eq_ok, except_pure_eq_ok] at h
    obtain ⟨pc', -, rfl⟩ := h
    rfl
  | _ =>
    cases h
    rfl

/-- Verification types that are mapped are as many, and have the same length together. -/
theorem length_mapM_mapType {types types' : List VerificationType}
    (h : types.mapM layout.mapType = .ok types') :
    types'.length = types.length
      ∧ (types'.flatMap VerificationType.encode).length
        = (types.flatMap VerificationType.encode).length := by
  rw [mapM_eq_ok_iff] at h
  induction h with
  | nil => exact ⟨rfl, rfl⟩
  | cons htype _ ih =>
    simp only [List.length_cons, List.flatMap_cons, List.length_append, length_mapType htype, ih.1,
      ih.2, and_self]

/-- The types of a frame leave its form as it is. -/
theorem mapTypes_spec {frame frame' : StackFrame} (h : layout.mapTypes frame = .ok frame') :
    (frame.Writable → frame'.Writable) ∧ frame'.encode.length = frame.encode.length := by
  cases frame with
  | oneItem delta item | oneItemExtended delta item =>
    simp only [mapTypes, except_bind_eq_ok, except_pure_eq_ok] at h
    obtain ⟨item', hitem, rfl⟩ := h
    exact ⟨id, by simp [StackFrame.encode, length_mapType hitem]⟩
  | append delta locals =>
    simp only [mapTypes, except_bind_eq_ok, except_pure_eq_ok] at h
    obtain ⟨locals', hlocals, rfl⟩ := h
    obtain ⟨hcount, hlength⟩ := length_mapM_mapType hlocals
    simp only [StackFrame.Writable, StackFrame.encode, List.length_append, List.length_cons, hcount,
      hlength]
    exact ⟨id, trivial⟩
  | full delta locals stack =>
    simp only [mapTypes, except_bind_eq_ok, except_pure_eq_ok] at h
    obtain ⟨locals', hlocals, stack', hstack, rfl⟩ := h
    obtain ⟨hcount, hlength⟩ := length_mapM_mapType hlocals
    obtain ⟨hcount', hlength'⟩ := length_mapM_mapType hstack
    simp only [StackFrame.Writable, StackFrame.encode, encodeTable, List.length_append,
      List.length_cons, hcount, hlength, hcount', hlength', Bytes.length_ofUInt16]
    exact ⟨id, trivial⟩
  | _ =>
    cases h
    exact ⟨id, rfl⟩

/-! ### Tables of frames -/

/-- A frame is mapped with its offset and its types, and the next one from behind it. -/
theorem mapFramesOnto_cons {next newNext : Nat} {done rest out : List StackFrame}
    {frame : StackFrame} :
    layout.mapFramesOnto next newNext done (frame :: rest) = .ok out
      ↔ ∃ new mapped, layout.map? (next + frame.delta.toNat) = some new
          ∧ layout.mapTypes (frame.fit (UInt16.ofNat (new - newNext))) = .ok mapped
          ∧ layout.mapFramesOnto (next + frame.delta.toNat + 1) (new + 1) (mapped :: done) rest
            = .ok out := by
  simp only [mapFramesOnto]
  split
  · next new hnew => simp [hnew]
  · next hnone =>
    simp only [except_throw_eq_ok, false_iff]
    rintro ⟨new, _, hnew, -⟩
    exact hnone new hnew

variable {instructions : List Instruction} {hooks : HookRefs}

/-- **Frames from a place on**: they land behind the frames before them, so that the distances of
all frames that grow add up to no more than the length of a body. -/
theorem mapFramesOnto_spec (hlength : (Layout.of instructions hooks).newLength ≤ 65535)
    {next newNext : Nat} {done frames out : List StackFrame}
    (hwritable : ∀ frame ∈ frames, frame.Writable) (hle : newNext ≤ 65536)
    (hbehind : ∀ old new, next ≤ old → (Layout.of instructions hooks).map? old = some new →
      newNext ≤ new)
    (h : (Layout.of instructions hooks).mapFramesOnto next newNext done frames = .ok out) :
    ∃ mapped, out = done.reverse ++ mapped ∧ mapped.length = frames.length
      ∧ (∀ frame ∈ mapped, frame.Writable)
      ∧ 32 * (mapped.flatMap StackFrame.encode).length + newNext
        ≤ 32 * (frames.flatMap StackFrame.encode).length + 65536 := by
  induction frames generalizing next newNext done with
  | nil =>
    cases h
    exact ⟨[], by simp, rfl, nofun, by simpa using hle⟩
  | cons frame rest ih =>
    obtain ⟨new, mapped, hnew, hmapped, hrest⟩ := mapFramesOnto_cons.1 h
    have hge := hbehind _ _ (Nat.le_add_right ..) hnew
    have hnewLe := (fits_of hlength).map?_le hnew
    obtain ⟨more, hout, hcount, hwritable', hoctets⟩ := ih
      (fun f hf => hwritable f (List.mem_cons_of_mem _ hf)) (Nat.succ_le_succ hnewLe)
      (fun old' new' hlt hnew' => map?_lt hnew hnew' hlt) hrest
    obtain ⟨hkept, hsame⟩ := mapTypes_spec hmapped
    have hgrowth := StackFrame.length_fit_le frame (UInt16.ofNat (new - newNext))
    have hdelta : (UInt16.ofNat (new - newNext)).toNat = new - newNext :=
      UInt16.toNat_ofNat_of_lt' (by simp only [UInt16.size]; omega)
    refine ⟨mapped :: more, by simp [hout], by simp [hcount], ?_, ?_⟩
    · intro f hf
      obtain rfl | hf := List.mem_cons.1 hf
      · exact hkept (StackFrame.writable_fit (hwritable frame List.mem_cons_self) _)
      · exact hwritable' f hf
    · simp only [List.flatMap_cons, List.length_append, hsame]
      rw [hdelta] at hgrowth
      split at hgrowth <;> omega

/-- **The frames of a body** with hooks. -/
theorem mapFrames_spec (hlength : (Layout.of instructions hooks).newLength ≤ 65535)
    {frames out : List StackFrame} (hwritable : ∀ frame ∈ frames, frame.Writable)
    (h : (Layout.of instructions hooks).mapFrames frames = .ok out) :
    out.length = frames.length ∧ (∀ frame ∈ out, frame.Writable)
      ∧ (out.flatMap StackFrame.encode).length
        ≤ (frames.flatMap StackFrame.encode).length + 2048 := by
  obtain ⟨mapped, rfl, hcount, hwritable', hoctets⟩ :=
    mapFramesOnto_spec hlength hwritable (Nat.zero_le _) (fun _ _ _ _ => Nat.zero_le _) h
  exact ⟨hcount, hwritable', by omega⟩

/-! ### Where the new frames stand -/

/-- The offset `old` is mapped to `new`. -/
def Maps (layout : Layout) (old new : Nat) : Prop :=
  layout.map? old = some new

/-- A verification type that is mapped keeps its kind, and its allocation moves. -/
theorem mapType_moved (hfits : layout.Fits) {type type' : VerificationType}
    (h : layout.mapType type = .ok type') :
    type'.skeleton = type.skeleton
      ∧ List.Forall₂ layout.Maps type.origin?.toList type'.origin?.toList := by
  cases type with
  | uninitialized pc =>
    simp only [mapType, except_bind_eq_ok, except_pure_eq_ok] at h
    obtain ⟨pc', hpc, rfl⟩ := h
    exact ⟨rfl, .cons (map?_of_map hfits hpc) .nil⟩
  | _ =>
    cases h
    exact ⟨rfl, .nil⟩

/-- Verification types that are mapped keep their kinds, and their allocations move. -/
theorem mapM_mapType_moved (hfits : layout.Fits) {types types' : List VerificationType}
    (h : types.mapM layout.mapType = .ok types') :
    types'.map VerificationType.skeleton = types.map VerificationType.skeleton
      ∧ List.Forall₂ layout.Maps (types.filterMap VerificationType.origin?)
        (types'.filterMap VerificationType.origin?) := by
  rw [mapM_eq_ok_iff] at h
  induction h with
  | nil => exact ⟨rfl, .nil⟩
  | @cons type type' _ _ htype _ ih =>
    obtain ⟨hskeleton, horigin⟩ := mapType_moved hfits htype
    refine ⟨by rw [List.map_cons, List.map_cons, hskeleton, ih.1], ?_⟩
    rw [List.filterMap_cons, List.filterMap_cons]
    cases horiginOld : type.origin? <;> cases horiginNew : type'.origin? <;>
      rw [horiginOld, horiginNew] at horigin
    · exact ih.2
    · cases horigin
    · cases horigin
    · exact .cons (List.forall₂_cons.1 horigin).1 ih.2

/-- The types of a frame keep their kinds and its delta is kept, and their allocations move. -/
theorem mapTypes_moved (hfits : layout.Fits) {frame frame' : StackFrame}
    (h : layout.mapTypes frame = .ok frame') :
    frame'.delta = frame.delta ∧ frame'.skeleton = frame.skeleton
      ∧ List.Forall₂ layout.Maps frame.origins frame'.origins := by
  cases frame with
  | oneItem delta item | oneItemExtended delta item =>
    simp only [mapTypes, except_bind_eq_ok, except_pure_eq_ok] at h
    obtain ⟨item', hitem, rfl⟩ := h
    have hitems : [item].mapM layout.mapType = .ok [item'] :=
      mapM_eq_ok_iff.2 (.cons hitem .nil)
    obtain ⟨hskeleton, horigins⟩ := mapM_mapType_moved hfits hitems
    exact ⟨rfl, congrArg (StackFrame.oneItem 0) (List.cons.inj hskeleton).1, horigins⟩
  | append delta locals =>
    simp only [mapTypes, except_bind_eq_ok, except_pure_eq_ok] at h
    obtain ⟨locals', hlocals, rfl⟩ := h
    obtain ⟨hskeleton, horigins⟩ := mapM_mapType_moved hfits hlocals
    exact ⟨rfl, congrArg (StackFrame.append 0) hskeleton, horigins⟩
  | full delta locals stack =>
    simp only [mapTypes, except_bind_eq_ok, except_pure_eq_ok] at h
    obtain ⟨locals', hlocals, stack', hstack, rfl⟩ := h
    obtain ⟨hskeleton, horigins⟩ := mapM_mapType_moved hfits hlocals
    obtain ⟨hskeleton', horigins'⟩ := mapM_mapType_moved hfits hstack
    refine ⟨rfl, by simp only [StackFrame.skeleton, hskeleton, hskeleton'], ?_⟩
    simp only [StackFrame.origins, StackFrame.types, List.filterMap_append]
    exact List.rel_append horigins horigins'
  | _ =>
    cases h
    exact ⟨rfl, rfl, .nil⟩

/-- Another distance leaves a frame what it is. -/
theorem fit_moved (frame : StackFrame) (delta : UInt16) :
    (frame.fit delta).delta = delta ∧ (frame.fit delta).skeleton = frame.skeleton
      ∧ (frame.fit delta).origins = frame.origins := by
  cases frame with
  | same | oneItem | oneItemExtended =>
    simp only [StackFrame.fit]
    split <;> exact ⟨rfl, rfl, rfl⟩
  | chop | append | full | sameExtended => exact ⟨rfl, rfl, rfl⟩

/-- Frames that are mapped moved, by induction on those that are left: landing places never go back. -/
theorem mapFramesOnto_moved (hlength : (Layout.of instructions hooks).newLength ≤ 65535)
    {next newNext : Nat} {done frames out : List StackFrame}
    (hbehind : ∀ old new, next ≤ old → (Layout.of instructions hooks).map? old = some new →
      newNext ≤ new)
    (h : (Layout.of instructions hooks).mapFramesOnto next newNext done frames = .ok out) :
    ∃ mapped, out = done.reverse ++ mapped
      ∧ List.Forall₂ (StackFrame.Moved (Layout.of instructions hooks).Maps)
          (StackFrame.placedFrom next frames) (StackFrame.placedFrom newNext mapped) := by
  induction frames generalizing next newNext done with
  | nil =>
    cases h
    exact ⟨[], by simp, .nil⟩
  | cons frame rest ih =>
    obtain ⟨new, mapped, hnew, hmapped, hrest⟩ := mapFramesOnto_cons.1 h
    have hge := hbehind _ _ (Nat.le_add_right ..) hnew
    have hnewLe := (fits_of hlength).map?_le hnew
    obtain ⟨more, hout, hmore⟩ := ih (fun old' new' hlt hnew' => map?_lt hnew hnew' hlt) hrest
    obtain ⟨hdelta, hskeleton, horigins⟩ := fit_moved frame (UInt16.ofNat (new - newNext))
    obtain ⟨hdelta', hskeleton', horigins'⟩ := mapTypes_moved (fits_of hlength) hmapped
    have hplace : newNext + mapped.delta.toNat = new := by
      rw [hdelta', hdelta, UInt16.toNat_ofNat_of_lt' (by simp only [UInt16.size]; omega)]
      omega
    refine ⟨mapped :: more, by simp [hout], ?_⟩
    simp only [StackFrame.placedFrom, hplace]
    exact .cons ⟨hnew, hskeleton'.trans hskeleton, horigins ▸ horigins'⟩ hmore

/-- **The frames of a body** stand, in the body with hooks, where the layout maps what they stood
in front of. -/
theorem mapFrames_moved (hlength : (Layout.of instructions hooks).newLength ≤ 65535)
    {frames out : List StackFrame}
    (h : (Layout.of instructions hooks).mapFrames frames = .ok out) :
    StackFrame.TableMoved (Layout.of instructions hooks).Maps frames out := by
  obtain ⟨mapped, rfl, hmoved⟩ := mapFramesOnto_moved hlength (fun _ _ _ _ => Nat.zero_le _) h
  exact hmoved

end Layout

end AdviceWeaver

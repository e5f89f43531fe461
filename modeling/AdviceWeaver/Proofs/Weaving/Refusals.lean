import AdviceWeaver.Proofs.Weaving.NewAttributes

/-!
# Why hooks are refused

Inserting hooks fails at the first obstacle (`CodeOf.Refused`): the octets cannot be decoded, the new
body is too large, a branch has become too long for its kind, or an offset has no landing place. Only
the second and the third come from what is inserted (`WeaveError.isGrowth`); the others are there
whatever the hooks are.

## Main results

* `Layout.mend_eq_error` — why the distances of an instruction cannot be mended.
* `Layout.mapAttribute_eq_error` — why an attribute cannot be written.
* `CodeOf.refused_of_insertHooks` — why hooks cannot be inserted.
-/

namespace AdviceWeaver

/-- The obstacle comes from what a body grows by. -/
def WeaveError.isGrowth : WeaveError → Bool
  | .codeTooLarge _ | .branchOverflow _ => true
  | _ => false

variable {e : WeaveError}

/-! ### Decoding -/

/-- Operands that are missing are no matter of growth. -/
theorem isGrowth_of_readOperands {pc count : Nat} {op : UInt8} {rest : Bytes}
    (h : readOperands pc op count rest = .error e) : e.isGrowth = false := by
  unfold readOperands at h
  split at h <;> cases h
  rfl

/-- A table switch that cannot be read is no matter of growth. -/
theorem isGrowth_of_readTableSwitch {pc : Nat} {rest : Bytes}
    (h : readTableSwitch pc rest = .error e) : e.isGrowth = false := by
  simp only [readTableSwitch] at h
  split at h
  · cases h
    rfl
  split at h
  · cases h
    rfl
  split at h
  · cases h
    rfl
  split at h
  · cases h
    rfl
  split at h <;> cases h
  rfl

/-- A lookup switch that cannot be read is no matter of growth. -/
theorem isGrowth_of_readLookupSwitch {pc : Nat} {rest : Bytes}
    (h : readLookupSwitch pc rest = .error e) : e.isGrowth = false := by
  simp only [readLookupSwitch] at h
  split at h
  · cases h
    rfl
  split at h
  · cases h
    rfl
  split at h
  · cases h
    rfl
  split at h <;> cases h
  rfl

/-- An instruction that cannot be read is no matter of growth, whatever its opcode. -/
theorem isGrowth_of_readInstruction {pc : Nat} {op : UInt8} {rest : Bytes}
    (h : readInstruction pc op rest = .error e) : e.isGrowth = false := by
  unfold readInstruction at h
  split at h
  · exact isGrowth_of_readTableSwitch h
  split at h
  · exact isGrowth_of_readLookupSwitch h
  split at h
  · unfold readWide at h
    split at h
    · exact isGrowth_of_readOperands h
    · cases h
      rfl
  split at h
  · unfold readBranch at h
    split at h <;> cases h
    rfl
  split at h
  · unfold readWideBranch at h
    split at h <;> cases h
    rfl
  split at h
  · exact isGrowth_of_readOperands h
  · cases h
    rfl

/-- A body that cannot be decoded is no matter of growth, by induction along the decoding. -/
theorem Body.isGrowth_of_decodeOnto {pc : Nat} {done : List Instruction} {bytes : Bytes}
    (h : decodeOnto pc done bytes = .error e) : e.isGrowth = false := by
  fun_induction decodeOnto pc done bytes with
  | case1 => cases h
  | case2 _ _ _ _ _ hread =>
    cases h
    exact isGrowth_of_readInstruction hread
  | case3 _ _ _ _ _ _ _ ih => exact ih h

/-- **Octets that cannot be decoded** are refused whatever the hooks are. -/
theorem Body.isGrowth_of_decode {bytes : Bytes} (h : decode bytes = .error e) :
    e.isGrowth = false :=
  isGrowth_of_decodeOnto h

/-! ### Offsets -/

/-- The offsets that an exception handler holds. -/
def ExceptionHandler.offsets (h : ExceptionHandler) : List Nat :=
  [h.start.toNat, h.stop.toNat, h.handler.toNat]

/-- The offsets that a frame at its place holds. -/
def StackFrame.offsets (placed : Nat × StackFrame) : List Nat :=
  placed.1 :: placed.2.origins

/-- The offsets that the content of an attribute holds: where frames stand and what their types
name, where lines start, and where the ranges of variables start and stop. -/
def ContentOf.offsets {α : Type} : ContentOf α → List Nat
  | .stackMapTable frames => (StackFrame.placedFrom 0 frames).flatMap StackFrame.offsets
  | .lineNumberTable entries => entries.map fun e => e.start.toNat
  | .localVariableTable entries | .localVariableTypeTable entries =>
    entries.flatMap fun e => [e.start.toNat, e.stop]
  | _ => []

namespace Layout

variable {layout : Layout} {site : Site}

/-- The obstacle is that one of `offsets` has no landing place. -/
def Lost (layout : Layout) (offsets : List Nat) (e : WeaveError) : Prop :=
  e.isGrowth = false ∧ ∃ n ∈ offsets, layout.map? n = none

/-- One of fewer offsets is one of more. -/
theorem Lost.mono {offsets offsets' : List Nat} (h : layout.Lost offsets e)
    (hsubset : offsets ⊆ offsets') : layout.Lost offsets' e := by
  obtain ⟨hgrowth, n, hn, hnone⟩ := h
  exact ⟨hgrowth, n, hsubset hn, hnone⟩

/-- An offset that has no landing place is one of those that it belongs to. -/
theorem Lost.of_mem {n : Nat} {offsets : List Nat} (h : layout.Lost [n] e) (hn : n ∈ offsets) :
    layout.Lost offsets e :=
  h.mono fun _ hm => List.mem_singleton.1 hm ▸ hn

/-- An offset that is not mapped has no landing place. -/
theorem lost_of_map {at_ : Nat} {old : UInt16} (h : layout.map at_ old = .error e) :
    layout.Lost [old.toNat] e := by
  unfold map at h
  split at h
  · cases h
  · next hnone =>
    cases h
    exact ⟨rfl, _, List.mem_singleton_self _, hnone⟩

/-- A handler is lost with its start, its end or its target. -/
theorem lost_of_mapHandler {handler : ExceptionHandler} (h : layout.mapHandler handler = .error e) :
    layout.Lost handler.offsets e := by
  obtain hstart | ⟨_, -, h⟩ := except_bind_eq_error.1 h
  · exact (lost_of_map hstart).of_mem (by simp [ExceptionHandler.offsets])
  · obtain hstop | ⟨_, -, h⟩ := except_bind_eq_error.1 h
    · exact (lost_of_map hstop).of_mem (by simp [ExceptionHandler.offsets])
    · rw [except_bind_pure_eq_error] at h
      exact (lost_of_map h).of_mem (by simp [ExceptionHandler.offsets])

/-- A line is lost with its start. -/
theorem lost_of_mapLine {entry : LineEntry} (h : layout.mapLine entry = .error e) :
    layout.Lost [entry.start.toNat] e := by
  rw [mapLine, except_bind_pure_eq_error] at h
  exact lost_of_map h

/-- A variable is lost with its start or its end. -/
theorem lost_of_mapVariable {entry : VariableEntry} (h : layout.mapVariable entry = .error e) :
    layout.Lost [entry.start.toNat, entry.stop] e := by
  simp only [mapVariable, except_bind_eq_error] at h
  obtain hstart | ⟨_, -, h⟩ := h
  · exact (lost_of_map hstart).of_mem List.mem_cons_self
  · split at h
    · cases h
    · next hnone =>
      cases h
      exact ⟨rfl, entry.stop, by simp, hnone⟩

/-! ### Stack map frames -/

/-- A verification type is lost with the allocation it names, the only kind that has an offset. -/
theorem lost_of_mapType {type : VerificationType} (h : layout.mapType type = .error e) :
    layout.Lost type.origin?.toList e := by
  cases type with
  | uninitialized pc =>
    rw [mapType, except_bind_pure_eq_error] at h
    exact lost_of_map h
  | _ => cases h

/-- A list of verification types is lost with one of those it holds. -/
theorem lost_of_mapM_mapType {types : List VerificationType}
    (h : types.mapM layout.mapType = .error e) :
    layout.Lost (types.filterMap VerificationType.origin?) e := by
  obtain ⟨type, htype, h⟩ := exists_of_mapM_eq_error h
  obtain ⟨hgrowth, n, hn, hnone⟩ := lost_of_mapType h
  exact ⟨hgrowth, n, List.mem_filterMap.2 ⟨type, htype, Option.mem_toList.1 hn⟩, hnone⟩

/-- The types of a frame are lost with one of the allocations in them. -/
theorem lost_of_mapTypes {frame : StackFrame} (h : layout.mapTypes frame = .error e) :
    layout.Lost frame.origins e := by
  cases frame with
  | oneItem delta item | oneItemExtended delta item =>
    rw [mapTypes, except_bind_pure_eq_error] at h
    have hitems : [item].mapM layout.mapType = .error e := by
      rw [List.mapM_cons, except_bind_eq_error]
      exact .inl h
    exact lost_of_mapM_mapType hitems
  | append delta locals =>
    rw [mapTypes, except_bind_pure_eq_error] at h
    exact lost_of_mapM_mapType h
  | full delta locals stack =>
    rw [StackFrame.origins, StackFrame.types, List.filterMap_append]
    obtain hlocals | ⟨_, -, h⟩ := except_bind_eq_error.1 h
    · exact (lost_of_mapM_mapType hlocals).mono (List.subset_append_left ..)
    · rw [except_bind_pure_eq_error] at h
      exact (lost_of_mapM_mapType h).mono (List.subset_append_right ..)
  | _ => cases h

/-- A stack map is lost with a frame or with a type in it, by induction on the frames that are left. -/
theorem lost_of_mapFramesOnto {next newNext : Nat} {done frames : List StackFrame}
    (h : layout.mapFramesOnto next newNext done frames = .error e) :
    layout.Lost ((StackFrame.placedFrom next frames).flatMap StackFrame.offsets) e := by
  induction frames generalizing next newNext done with
  | nil => cases h
  | cons frame rest ih =>
    rw [StackFrame.placedFrom, List.flatMap_cons]
    simp only [mapFramesOnto] at h
    split at h
    · obtain hmapped | ⟨_, -, hrest⟩ := except_bind_eq_error.1 h
      · have horigins := lost_of_mapTypes hmapped
        rw [(fit_moved frame _).2.2] at horigins
        exact horigins.mono fun n hn => List.mem_append_left _ (List.mem_cons_of_mem _ hn)
      · exact (ih hrest).mono (List.subset_append_right ..)
    · next hnone =>
      cases h
      refine ⟨rfl, next + frame.delta.toNat, ?_, Option.eq_none_iff_forall_not_mem.2 hnone⟩
      exact List.mem_append_left _ List.mem_cons_self

/-! ### Attributes -/

/-- A table is lost with one of its offsets, whichever table it is. -/
theorem lost_of_mapContent {content : Content} (h : layout.mapContent content = .error e) :
    layout.Lost content.offsets e := by
  have hvariables {entries : List VariableEntry} (h : entries.mapM layout.mapVariable = .error e) :
      layout.Lost (entries.flatMap fun e => [e.start.toNat, e.stop]) e := by
    obtain ⟨entry, hentry, h⟩ := exists_of_mapM_eq_error h
    exact (lost_of_mapVariable h).mono fun _ hn => List.mem_flatMap.2 ⟨entry, hentry, hn⟩
  cases content with
  | stackMapTable frames =>
    rw [mapContent, except_bind_pure_eq_error] at h
    exact lost_of_mapFramesOnto h
  | lineNumberTable entries =>
    rw [mapContent, except_bind_pure_eq_error] at h
    obtain ⟨entry, hentry, h⟩ := exists_of_mapM_eq_error h
    exact (lost_of_mapLine h).of_mem (List.mem_map_of_mem hentry)
  | localVariableTable entries | localVariableTypeTable entries =>
    rw [mapContent, except_bind_pure_eq_error] at h
    exact hvariables h
  | _ => cases h

/-- **Why an attribute cannot be written**: it holds an offset without a landing place, or it cannot
be cut out from the class file. -/
theorem mapAttribute_eq_error {classBytes : Bytes} {a : Attribute}
    (h : layout.mapAttribute classBytes a = .error e) :
    layout.Lost a.content.offsets e
      ∨ e.isGrowth = false ∧ classBytes.slice? a.span.start a.span.stop = none := by
  obtain hcontent | ⟨_, -, h⟩ := except_bind_eq_error.1 h
  · exact .inl (lost_of_mapContent hcontent)
  · split at h
    · cases h
    · split at h
      · cases h
      · next hnone =>
        cases h
        exact .inr ⟨rfl, hnone⟩

/-! ### Distances -/

/-- The obstacle is that one of `distances` does not lead to an instruction. -/
def Astray (layout : Layout) (site : Site) (distances : List Int) (e : WeaveError) : Prop :=
  e.isGrowth = false ∧ ∃ d ∈ distances, ∀ new, layout.mapTarget site.pc d ≠ .ok new

/-- The short branch of a site, if it is one, still has a distance of 16 bits. -/
def Reaches (layout : Layout) (site : Site) : Prop :=
  ∀ op d new, site.instruction = .branch op d → layout.mapTarget site.pc d.toInt = .ok new →
    -32768 ≤ (new : Int) - site.newPc ∧ (new : Int) - site.newPc ≤ 32767

/-- A distance that leads astray is one of those of its instruction. -/
theorem Astray.of_mem {d : Int} {distances : List Int} (h : layout.Astray site [d] e)
    (hd : d ∈ distances) : layout.Astray site distances e := by
  obtain ⟨hgrowth, d', hd', hnone⟩ := h
  obtain rfl := List.mem_singleton.1 hd'
  exact ⟨hgrowth, d', hd, hnone⟩

/-- A target that is not mapped lies at no instruction. -/
theorem astray_of_mapTarget {d : Int} (h : layout.mapTarget site.pc d = .error e) :
    layout.Astray site [d] e := by
  refine ⟨?_, d, List.mem_singleton_self d, by simp [h]⟩
  simp only [mapTarget] at h
  split at h
  · cases h
    rfl
  · split at h <;> cases h
    rfl

/-- A distance that cannot be told leads to no instruction. -/
theorem astray_of_distance {d : Int32} (h : layout.distance site d = .error e) :
    layout.Astray site [d.toInt] e := by
  rw [distance, except_bind_pure_eq_error] at h
  exact astray_of_mapTarget h

/-- **Why distances cannot be mended**: one of them does not lead to an instruction, or a short one
has become too long. -/
theorem mend_eq_error (h : layout.mend site = .error e) :
    layout.Astray site site.instruction.distances e
      ∨ e = .branchOverflow site.pc ∧ ¬ layout.Reaches site := by
  cases hi : site.instruction with
  | plain op operands =>
    simp only [mend, hi] at h
    cases h
  | branch op old =>
    simp only [mend, hi, except_bind_eq_error] at h
    obtain htarget | ⟨new, hnew, h⟩ := h
    · exact .inl (astray_of_mapTarget htarget)
    · split at h
      · next hrange =>
        cases h
        refine .inr ⟨rfl, fun hreaches => ?_⟩
        have hfits := hreaches op old new hi hnew
        omega
      · cases h
  | wideBranch op old =>
    simp only [mend, hi] at h
    rw [except_bind_pure_eq_error] at h
    exact .inl (astray_of_distance h)
  | tableSwitch padding default low high distances =>
    simp only [mend, hi] at h
    obtain hdefault | ⟨_, -, h⟩ := except_bind_eq_error.1 h
    · exact .inl ((astray_of_distance hdefault).of_mem List.mem_cons_self)
    · rw [except_bind_pure_eq_error] at h
      obtain ⟨d, hd, h⟩ := exists_of_mapM_eq_error h
      exact .inl ((astray_of_distance h).of_mem (List.mem_cons_of_mem _ (List.mem_map_of_mem hd)))
  | lookupSwitch padding default cases =>
    simp only [mend, hi] at h
    obtain hdefault | ⟨_, -, h⟩ := except_bind_eq_error.1 h
    · exact .inl ((astray_of_distance hdefault).of_mem List.mem_cons_self)
    · rw [except_bind_pure_eq_error] at h
      obtain ⟨c, hc, h⟩ := exists_of_mapM_eq_error h
      rw [except_bind_pure_eq_error] at h
      exact .inl ((astray_of_distance h).of_mem (List.mem_cons_of_mem _ (List.mem_map_of_mem hc)))

end Layout

/-! ### Bodies -/

/-- Why hooks are not inserted into a body. -/
inductive CodeOf.Refused (body : Code) (classBytes : Bytes) (hooks : HookRefs) : WeaveError → Prop
  | decode {e : WeaveError} : Body.decode body.code = .error e → Refused body classBytes hooks e
  | length {instructions : List Instruction} :
    Body.decode body.code = .ok instructions → 65535 < (Layout.of instructions hooks).newLength →
    Refused body classBytes hooks (.codeTooLarge (Layout.of instructions hooks).newLength)
  | mend {instructions : List Instruction} {site : Site} {e : WeaveError} :
    Body.decode body.code = .ok instructions → site ∈ (Layout.of instructions hooks).sites →
    (Layout.of instructions hooks).mend site = .error e → Refused body classBytes hooks e
  | handler {instructions : List Instruction} {h : ExceptionHandler} {e : WeaveError} :
    Body.decode body.code = .ok instructions → h ∈ body.handlers →
    (Layout.of instructions hooks).mapHandler h = .error e → Refused body classBytes hooks e
  | nested {instructions : List Instruction} {a : Attribute} {e : WeaveError} :
    Body.decode body.code = .ok instructions → a ∈ body.attributes →
    (Layout.of instructions hooks).mapAttribute classBytes a = .error e →
    Refused body classBytes hooks e

/-- **Why hooks cannot be inserted.** -/
theorem CodeOf.refused_of_insertHooks {body : Code} {classBytes : Bytes} {hooks : HookRefs}
    (h : body.insertHooks classBytes hooks = .error e) : Refused body classBytes hooks e := by
  obtain hdecode | ⟨instructions, hdecode, h⟩ := except_bind_eq_error.1 h
  · exact .decode hdecode
  · dsimp only at h
    split at h
    · next hlength =>
      cases h
      exact .length hdecode hlength
    obtain hbody | ⟨_, -, h⟩ := except_bind_eq_error.1 h
    · rw [Layout.body, except_bind_pure_eq_error] at hbody
      obtain ⟨site, hsite, hmend⟩ := exists_of_mapM_eq_error hbody
      exact .mend hdecode hsite hmend
    obtain hhandlers | ⟨_, -, h⟩ := except_bind_eq_error.1 h
    · obtain ⟨handler, hmem, hhandler⟩ := exists_of_mapM_eq_error hhandlers
      exact .handler hdecode hmem hhandler
    · rw [except_bind_pure_eq_error] at h
      obtain ⟨a, ha, hattribute⟩ := exists_of_mapM_eq_error h
      exact .nested hdecode (List.mem_of_mem_filter ha) hattribute

/-- **Growth** is what hooks are refused for when the body is too large or a short branch too long, and
for nothing else. -/
theorem CodeOf.Refused.growth {body : Code} {classBytes : Bytes} {hooks : HookRefs}
    (h : body.Refused classBytes hooks e) (hgrowth : e.isGrowth = true) :
    ∃ instructions, Body.decode body.code = .ok instructions
      ∧ ((65535 < (Layout.of instructions hooks).newLength
            ∧ e = .codeTooLarge (Layout.of instructions hooks).newLength)
          ∨ ∃ site ∈ (Layout.of instructions hooks).sites,
              ¬ (Layout.of instructions hooks).Reaches site ∧ e = .branchOverflow site.pc) := by
  have hnot : ¬ e.isGrowth = false := by simp [hgrowth]
  cases h with
  | decode herror => exact absurd (Body.isGrowth_of_decode herror) hnot
  | length hdecode hlength => exact ⟨_, hdecode, .inl ⟨hlength, rfl⟩⟩
  | @mend instructions site _ hdecode hsite hmend =>
    obtain hastray | ⟨rfl, hshort⟩ := Layout.mend_eq_error hmend
    · exact absurd hastray.1 hnot
    · exact ⟨instructions, hdecode, .inr ⟨site, hsite, hshort, rfl⟩⟩
  | handler _ _ hmap => exact absurd (Layout.lost_of_mapHandler hmap).1 hnot
  | nested _ _ hmap =>
    obtain hlost | ⟨hfalse, -⟩ := Layout.mapAttribute_eq_error hmap
    · exact absurd hlost.1 hnot
    · exact absurd hfalse hnot

end AdviceWeaver

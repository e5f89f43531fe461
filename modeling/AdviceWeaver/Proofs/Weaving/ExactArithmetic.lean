import AdviceWeaver.Proofs.Bytecode.InstructionForms
import AdviceWeaver.Proofs.ClassFile.Spans
import AdviceWeaver.Proofs.Weaving.FollowingFrames
import AdviceWeaver.Proofs.Weaving.FreshConstants

/-!
# Arithmetic that cuts nothing off

Moving a body writes offsets, lengths, distances and counts into fields of 8, 16 and 32 bits, takes
differences of offsets, and cuts pieces out of the body and of the class file. Only the length of the
new body is looked at on the way. All the rest is right because landing places grow with the old
offsets and none is beyond the new end (`Layout.Exact`), because the counts were read from fields of
the same size, and because a layout of instructions covers the body it was decoded from
(`CodeOf.MovesExactly`). These facts are not about runs that succeed: a run that stops at a bad target
has done its arithmetic up to there as exactly as any other.

The one field that may be too small is the number of constants of a class whose pool has a slot more
than can be counted.

## Main results

* `Layout.exact_of` — the offsets of a layout whose new body has at most 65535 octets.
* `CodeOf.movesExactly` — what moving a body of a class that was read computes, writes and cuts.
* `ClassFile.ascend_splices` — the splices of a plan cut a class file at ascending places.
* `ClassFile.weave_exact` — all of it, for a class that was read.
-/

namespace AdviceWeaver

/-! ### Words -/

/-- The number is one that 16 bits hold. -/
def FitsWord (n : Nat) : Prop :=
  (UInt16.ofNat n).toNat = n

theorem fitsWord_of_le {n : Nat} (h : n ≤ 65535) : FitsWord n :=
  UInt16.toNat_ofNat_of_lt' (Nat.lt_succ_of_le h)

/-! ### Frames -/

namespace StackFrame

/-- What is written of a frame is not cut off: its distance in a short kind, its kind, and the numbers
of its types. -/
def IsExact : StackFrame → Prop
  | .same delta => delta.toUInt8.toNat = delta.toNat
  | .oneItem delta _ => (64 + delta.toUInt8).toNat = 64 + delta.toNat
  | .oneItemExtended .. | .sameExtended _ => True
  | .chop _ locals => locals.toNat ≤ 251 ∧ (251 - locals).toNat = 251 - locals.toNat
  | .append _ locals => (251 + UInt8.ofNat locals.length).toNat = 251 + locals.length
  | .full _ locals stack => FitsWord locals.length ∧ FitsWord stack.length

/-- A frame that can be written has a kind that tells its delta and its locals exactly. -/
theorem isExact_of_writable {frame : StackFrame} (h : frame.Writable) : frame.IsExact := by
  cases frame with
  | same delta =>
    simp only [Writable, UInt16.le_iff_toNat_le, UInt16.reduceToNat] at h
    simp only [IsExact, UInt16.toNat_toUInt8]
    omega
  | oneItem delta item =>
    simp only [Writable, UInt16.le_iff_toNat_le, UInt16.reduceToNat] at h
    simp only [IsExact, UInt8.toNat_add, UInt16.toNat_toUInt8, UInt8.reduceToNat]
    omega
  | oneItemExtended | sameExtended => trivial
  | chop delta locals => obtain rfl | rfl | rfl := Reader.few_locals h <;> exact ⟨by decide, rfl⟩
  | append delta locals =>
    obtain ⟨hpos, hle⟩ := h
    simp only [IsExact, UInt8.toNat_add, UInt8.toNat_ofNat', UInt8.reduceToNat]
    omega
  | full delta locals stack =>
    exact ⟨fitsWord_of_le (Nat.le_of_lt_succ h.1), fitsWord_of_le (Nat.le_of_lt_succ h.2)⟩

/-- Of two frames in a row the second one stands behind the first. -/
theorem lt_of_placedFrom {next k offset offset' : Nat} {frames : List StackFrame}
    {frame frame' : StackFrame} (h : (placedFrom next frames)[k]? = some (offset, frame))
    (h' : (placedFrom next frames)[k + 1]? = some (offset', frame')) : offset < offset' := by
  induction frames generalizing next k with
  | nil => cases h
  | cons first rest ih =>
    rw [placedFrom, List.getElem?_cons_succ] at h'
    cases k with
    | zero =>
      cases h
      exact le_of_mem_placedFrom (List.mem_of_getElem? h')
    | succ k => exact ih h h'

end StackFrame

/-! ### Offsets -/

namespace Layout

/-- What is computed from the offsets of a layout is never cut off. -/
structure Exact (layout : Layout) : Prop where
  increasing {old new old' new' : Nat} : layout.map? old = some new → layout.map? old' = some new' →
    old < old' → new < new'
  word {old new : Nat} : layout.map? old = some new → FitsWord new
  /-- The new range of a variable does not end before it starts, and its length is a word. -/
  range {at_ : Nat} {e : VariableEntry} {start : UInt16} {stop : Nat} :
    layout.map at_ e.start = .ok start →
    layout.map? (e.start.toNat + e.length.toNat) = some stop →
    start.toNat ≤ stop ∧ FitsWord (stop - start.toNat)
  /-- The place of a frame lies behind that of the frame before it, and the distance between them,
  less one, is a word. -/
  delta {frames : List StackFrame} {k offset offset' new new' : Nat} {frame frame' : StackFrame} :
    (StackFrame.placedFrom 0 frames)[k]? = some (offset, frame) →
    (StackFrame.placedFrom 0 frames)[k + 1]? = some (offset', frame') →
    layout.map? offset = some new → layout.map? offset' = some new' →
    new + 1 ≤ new' ∧ FitsWord (new' - (new + 1))
  /-- A distance between new offsets is a number of 32 bits. -/
  distance {site : Site} {old : Int} {target : Nat} : site ∈ layout.sites →
    layout.mapTarget site.pc old = .ok target →
    (Int32.ofInt ((target : Int) - site.newPc)).toInt = (target : Int) - site.newPc

variable {instructions : List Instruction} {hooks : HookRefs}

/-- Landing places are in the order of the old offsets, equal ones included. -/
theorem map?_le_of_le {old new old' new' : Nat}
    (h : (Layout.of instructions hooks).map? old = some new)
    (h' : (Layout.of instructions hooks).map? old' = some new') (hle : old ≤ old') : new ≤ new' := by
  obtain heq | hlt := Nat.eq_or_lt_of_le hle
  · subst heq
    rw [h] at h'
    exact Nat.le_of_eq (Option.some.inj h')
  · exact Nat.le_of_lt (map?_lt h h' hlt)

/-- **The offsets of a layout** are exact, if the new body has at most 65535 octets. -/
theorem exact_of (hlength : (Layout.of instructions hooks).newLength ≤ 65535) :
    (Layout.of instructions hooks).Exact where
  increasing := map?_lt
  word h := fitsWord_of_le ((fits_of hlength).map?_le h)
  range {at_ e start stop} hstart hstop := by
    have hle := map?_le_of_le (map?_of_map (fits_of hlength) hstart) hstop (Nat.le_add_right ..)
    have hword := (fits_of hlength).map?_le hstop
    exact ⟨hle, fitsWord_of_le (by omega)⟩
  delta {frames k offset offset' new new' frame frame'} hframe hframe' hmap hmap' := by
    have hlt := map?_lt hmap hmap' (StackFrame.lt_of_placedFrom hframe hframe')
    have hword := (fits_of hlength).map?_le hmap'
    exact ⟨hlt, fitsWord_of_le (by omega)⟩
  distance {site old target} hsite htarget := by
    obtain ⟨_, hmap, -, -⟩ := mapTarget_eq_ok_iff.1 htarget
    have hword := (fits_of hlength).map?_le hmap
    have hpc := (fits_of hlength).newPc_le hsite
    exact Int32.toInt_ofInt_of_le (by omega) (by omega)

/-! ### What is emitted -/

/-- An instruction that is placed returns if the old one does. -/
theorem isReturn_place (exitLength pc newEnd : Nat) (i : Instruction) :
    (place exitLength pc newEnd i).instruction.isReturn = i.isReturn := by
  rw [← Instruction.isReturn_skeleton, place, Instruction.skeleton_repad,
    Instruction.isReturn_skeleton]

/-- An instruction lands behind the exit calls that belong to it. -/
theorem newPc_place_eq (pc newEnd : Nat) (i : Instruction) :
    (place (exitLength hooks) pc newEnd i).newPc = newEnd
      + Body.length (if (place (exitLength hooks) pc newEnd i).instruction.isReturn
          then hooks.exitCalls else []) := by
  rw [isReturn_place, place]
  split <;> rfl

/-- The first sites of a layout are those of the first instructions. -/
theorem exists_of_sites_eq_append {front back : List Site}
    (h : (Layout.of instructions hooks).sites = front ++ back) :
    ∃ before after, instructions = before ++ after
      ∧ front = sitesFrom (exitLength hooks) 0 (prologueLength hooks) before
      ∧ back = sitesFrom (exitLength hooks) (Body.length before)
          (endFrom (exitLength hooks) (prologueLength hooks) before) after := by
  have hcount := congrArg List.length h
  rw [sites_of, length_sitesFrom, List.length_append] at hcount
  rw [sites_of, ← List.take_append_drop front.length instructions, sitesFrom_append, Nat.zero_add] at h
  obtain ⟨hfront, hback⟩ := List.append_inj h (by rw [length_sitesFrom, List.length_take]; omega)
  exact ⟨_, _, (List.take_append_drop front.length instructions).symm, hfront.symm, hback.symm⟩

/-- **What has been emitted** for some instructions ends where the layout lets them end, whether or not
the distances of the others can be mended. -/
theorem length_weave_mended {before after mended : List Instruction}
    (hlength : (Layout.of (before ++ after) hooks).newLength ≤ 65535)
    (h : List.Forall₂ (fun site m => (Layout.of (before ++ after) hooks).mend site = .ok m)
      (sitesFrom (exitLength hooks) 0 (prologueLength hooks) before) mended) :
    Body.length (hooks.weave mended)
      = endFrom (exitLength hooks) (prologueLength hooks) before := by
  have hsites (site : Site) (hsite : site ∈ sitesFrom (exitLength hooks) 0 (prologueLength hooks) before) :
      site ∈ (Layout.of (before ++ after) hooks).sites := by
    rw [sites_of, sitesFrom_append]
    exact List.mem_append_left _ hsite
  have hmends := ((List.forall₂_and_left _ _).2 ⟨hsites, h⟩).imp fun site m hm =>
    mends_of_mend (fits_of hlength) hm.1 hm.2
  have hcount : before.length = mended.length := by
    rw [← length_sitesFrom, h.length_eq]
  obtain ⟨pairs, rfl, rfl⟩ : ∃ pairs : List Replacement,
      before = pairs.map Prod.fst ∧ mended = pairs.map Prod.snd :=
    ⟨before.zip mended, (List.map_fst_zip (Nat.le_of_eq hcount)).symm,
      (List.map_snd_zip (Nat.le_of_eq hcount.symm)).symm⟩
  rw [endFrom_eq (hmends.imp fun site m hm => ⟨hm.skeleton, hm.length⟩), HookRefs.weave,
    Body.length_append]

end Layout

/-! ### Instructions in their body -/

namespace Instruction

variable {pc : Nat} {i : Instruction}

/-- A switch is at least as long as its padding, and padded anew it has the length that the layout
counts with. -/
theorem length_repad_of_switch (h : i.WellFormedAt pc) (newPc : Nat)
    (hop : i.opcode = Opcode.tableSwitch ∨ i.opcode = Opcode.lookupSwitch) :
    switchPadding pc ≤ i.length
      ∧ (i.repad newPc).length = i.length - switchPadding pc + switchPadding newPc := by
  cases i with
  | tableSwitch padding default low high distances =>
    have hpadding := h.1
    simp only [length, repad, List.length_replicate]
    omega
  | lookupSwitch padding default cases =>
    have hpadding := h.1
    simp only [length, repad, List.length_replicate]
    omega
  | plain op operands =>
    simp only [WellFormedAt, Opcode.OperandsFit] at h
    split at h
    · next hwide =>
      subst hwide
      obtain hop | hop := hop <;> cases hop
    · exact absurd hop (not_or.2 ⟨h.1, h.2.1⟩)
  | branch op distance =>
    obtain hop | hop := hop <;> (cases hop; cases h)
  | wideBranch op distance =>
    obtain hop | hop := hop <;> (cases hop; cases h)

end Instruction

/-! ### Counts -/

/-- The number of entries of a table that holds offsets into a body. -/
def ContentOf.tableSize {α : Type} : ContentOf α → Nat
  | .stackMapTable frames => frames.length
  | .lineNumberTable entries => entries.length
  | .localVariableTable entries | .localVariableTypeTable entries => entries.length
  | _ => 0

namespace Reader

/-- A table that was read has as many entries as its count says, which is a number of 16 bits. -/
theorem tableSize_lt_of_takes {nested : Reader (List Attribute)} {text : String} {offset : Nat}
    {octets : Bytes} {c : Content} (hnested : nested.Definite)
    (h : (content nested text).Takes offset octets c) : c.tableSize < 65536 := by
  have htable {α : Type} {R : Reader α} (hR : R.Definite) (f : List α → Content)
      (hf : ∀ items, (f items).tableSize = items.length)
      (hread : (f <$> counted R).Takes offset octets c) : c.tableSize < 65536 := by
    obtain ⟨items, hitems, rfl⟩ := hR.counted.takes_map_iff.1 hread
    rw [hf]
    exact ((takes_counted_iff hR).1 hitems).1
  have hpos : 0 < 65536 := Nat.succ_pos _
  unfold content at h
  split at h
  · obtain ⟨_, -, rfl⟩ := (definite_code hnested).takes_map_iff.1 h
    exact hpos
  · exact htable plain_stackFrame.definite _ (fun _ => rfl) h
  · exact htable plain_lineEntry.definite _ (fun _ => rfl) h
  · exact htable plain_variableEntry.definite _ (fun _ => rfl) h
  · exact htable plain_variableEntry.definite _ (fun _ => rfl) h
  · obtain ⟨_, -, rfl⟩ := plain_annotations.definite.takes_map_iff.1 h
    exact hpos
  · obtain ⟨_, -, rfl⟩ := plain_annotations.definite.takes_map_iff.1 h
    exact hpos
  · obtain ⟨-, rfl⟩ := takes_pure_iff.1 h
    exact hpos
  · obtain ⟨-, rfl⟩ := takes_pure_iff.1 h
    exact hpos
  · obtain ⟨_, -, rfl⟩ := definite_u2.takes_map_iff.1 h
    exact hpos
  · obtain ⟨_, -, rfl⟩ := definite_u2.takes_map_iff.1 h
    exact hpos
  · obtain ⟨-, rfl⟩ := takes_pure_iff.1 h
    exact hpos

/-- A table of attributes that was read has fewer than 65536. -/
theorem length_lt_of_takes_attributes {pool : ConstantPool} {depth offset : Nat} {octets : Bytes}
    {list : List Attribute} (h : (attributes pool depth).Takes offset octets list) :
    list.length < 65536 := by
  cases depth with
  | zero => exact (takes_throw_iff.1 h).elim
  | succ depth => exact ((takes_counted_iff (definite_attributeEntry pool _)).1 h).1

end Reader

/-- A table that was read has fewer than 65536 entries. -/
theorem Attribute.ReadFrom.tableSize_lt {bytes : Bytes} {pool : ConstantPool} {a : Attribute}
    (h : a.ReadFrom bytes pool) : a.content.tableSize < 65536 := by
  obtain ⟨depth, text, offset, octets, hcontent⟩ := h.exists_content
  exact Reader.tableSize_lt_of_takes (Reader.definite_attributes pool depth) hcontent

/-- The handlers and the attributes of a body that was read can be counted. -/
theorem Attribute.ReadFrom.counts_lt {bytes : Bytes} {pool : ConstantPool} {a : Attribute}
    {body : Code} (h : a.ReadFrom bytes pool) (hbody : a.content = .code body) :
    body.handlers.length < 65536 ∧ body.attributes.length < 65536 := by
  obtain ⟨depth, offset, octets, -, htakes⟩ := h
  have hnested := Reader.definite_attributes pool depth
  obtain ⟨front, rest, -, -, hcode⟩ := Reader.code_of_takes hnested htakes hbody
  obtain ⟨each, -, -, -, hhandlers, hattributes⟩ := (Reader.takes_code_iff hnested).1 hcode
  exact ⟨hhandlers, Reader.length_lt_of_takes_attributes hattributes⟩

/-! ### Bodies -/

/-- Moving a body with hooks is exact: `bytes` is the class file that the body was read from, and
`instructions` are those of the body. -/
structure CodeOf.MovesExactly (bytes : Bytes) (hooks : HookRefs) (instructions : List Instruction)
    (body : Code) : Prop where
  /-- Every instruction, and the end of the code, lands somewhere. -/
  lands {front back : List Instruction} : instructions = front ++ back →
    ∃ new, (Layout.of instructions hooks).map? (Body.length front) = some new
  offsets : (Layout.of instructions hooks).Exact
  /-- Every instruction is cut out of the code where it stands, operands and all, and a switch takes its
  old padding from its length. -/
  cut {site : Site} : site ∈ (Layout.of instructions hooks).sites →
    ∃ i ∈ instructions, site.instruction = i.repad site.newPc ∧ body.code.HasAt site.pc i.encode
      ∧ Instruction.Form site.pc i.encode
      ∧ (i.opcode = Opcode.tableSwitch ∨ i.opcode = Opcode.lookupSwitch →
        switchPadding site.pc ≤ i.length ∧ site.instruction.length
          = i.length - switchPadding site.pc + switchPadding site.newPc)
  /-- What has been emitted when the turn of an instruction comes ends at its landing place, and with
  the exit calls of a return at its new offset. -/
  emitted {front back : List Site} {site : Site} {mended : List Instruction} :
    (Layout.of instructions hooks).sites = front ++ site :: back →
    List.Forall₂ (fun site m => (Layout.of instructions hooks).mend site = .ok m) front mended →
    Body.length (hooks.weave mended) = site.start
      ∧ Body.length (hooks.weave mended
          ++ if site.instruction.isReturn then hooks.exitCalls else []) = site.newPc
  complete {mended : List Instruction} :
    List.Forall₂ (fun site m => (Layout.of instructions hooks).mend site = .ok m)
      (Layout.of instructions hooks).sites mended →
    Body.length (hooks.weave mended) = (Layout.of instructions hooks).newLength
  handlers : FitsWord body.handlers.length
  kept : FitsWord (body.attributes.filter Attribute.isKept).length
  tables {a : Attribute} : a ∈ body.attributes → FitsWord a.content.tableSize
  frames {a : Attribute} {frames : List StackFrame} {frame : StackFrame} (delta : UInt16) :
    a ∈ body.attributes → a.content = .stackMapTable frames → frame ∈ frames →
    (frame.fit delta).IsExact
  slices {a : Attribute} : a ∈ body.attributes →
    ∃ octets, bytes.slice? a.span.start a.span.stop = some octets

/-- The instruction of a site stands in the code at its old offset. -/
theorem Body.cut_of_mem_sites {code : Bytes} {hooks : HookRefs} {instructions : List Instruction}
    (hdecode : Body.decode code = .ok instructions) {site : Site}
    (hsite : site ∈ (Layout.of instructions hooks).sites) :
    ∃ i ∈ instructions, site.instruction = i.repad site.newPc ∧ i.WellFormedAt site.pc
      ∧ code.HasAt site.pc i.encode := by
  obtain ⟨hwf, rfl⟩ := Body.decode_eq_ok_iff.1 hdecode
  obtain ⟨before, i, after, rfl, rfl⟩ := Layout.mem_sites_iff.1 hsite
  obtain ⟨-, hi, -⟩ := Body.wellFormedFrom_append.1 hwf
  rw [Nat.zero_add] at hi
  refine ⟨i, by simp, rfl, hi, Body.encode before, Body.encode after, ?_, Body.length_encode before⟩
  simp [Body.encode]

/-- **Moving a body** of a class that was read is exact, if the new body has at most 65535 octets. -/
theorem CodeOf.movesExactly {bytes : Bytes} {c : ClassFile} {body : Code} {hooks : HookRefs}
    {instructions : List Instruction} (hread : ClassFile.read bytes = .ok c) (hbody : c.HasBody body)
    (hdecode : Body.decode body.code = .ok instructions)
    (hlength : (Layout.of instructions hooks).newLength ≤ 65535) :
    body.MovesExactly bytes hooks instructions := by
  have hattributes := ClassFile.readFrom_of_hasBody hread hbody
  obtain ⟨a, ha, hheld⟩ := hbody
  obtain ⟨hhandlers, hcount⟩ := (ClassFile.readFrom_of_hasAttribute hread hheld).counts_lt ha
  exact
    { lands := fun hsplit => ⟨_, Layout.map?_eq_some_iff.2 ⟨_, _, hsplit, rfl, rfl⟩⟩
      offsets := Layout.exact_of hlength
      cut := fun {site} hsite => by
        obtain ⟨i, hi, hrepad, hwf, hat⟩ := Body.cut_of_mem_sites hdecode hsite
        exact ⟨i, hi, hrepad, hat, Instruction.form_encode hwf,
          fun hop => hrepad ▸ Instruction.length_repad_of_switch hwf _ hop⟩
      emitted := fun {front back site mended} hsplit hmended => by
        obtain ⟨before, after, rfl, rfl, hback⟩ := Layout.exists_of_sites_eq_append hsplit
        have hend := Layout.length_weave_mended hlength hmended
        cases after with
        | nil => cases hback
        | cons i after =>
          obtain ⟨rfl, -⟩ := List.cons.inj hback
          refine ⟨hend, ?_⟩
          rw [Body.length_append, hend, Layout.newPc_place_eq]
      complete := fun {mended} hmended => by
        rw [Layout.newLength_of]
        rw [Layout.sites_of] at hmended
        rw [← List.append_nil instructions] at hlength
        refine Layout.length_weave_mended hlength ?_
        rwa [List.append_nil]
      handlers := fitsWord_of_le (Nat.le_of_lt_succ hhandlers)
      kept := fitsWord_of_le
        (Nat.le_trans (List.length_filter_le ..) (Nat.le_of_lt_succ hcount))
      tables := fun ha => fitsWord_of_le (Nat.le_of_lt_succ (hattributes _ ha).tableSize_lt)
      frames := fun delta ha hframes hframe => StackFrame.isExact_of_writable
        (StackFrame.writable_fit (((hattributes _ ha).writable hframes).2 _ hframe) delta)
      slices := fun ha => (hattributes _ ha).exists_slice.imp fun _ h => h.2 }

/-! ### Classes -/

namespace ClassFile

variable {bytes : Bytes} {c : ClassFile} {plan : WeavePlan} {x : PoolExtension}
  {results : List (Option Splice)}

/-- The target of an entry is an attribute of the method that the entry names. -/
theorem of_target? {entry : Nat × List Hook} {a : Attribute} (h : c.target? entry = some a) :
    ∃ m, c.methods[entry.1]? = some m ∧ a ∈ m.attributes := by
  unfold target? at h
  split at h
  · obtain ⟨⟨a, body⟩, hcode, rfl⟩ := Option.map_eq_some_iff.1 h
    obtain ⟨m, hm, hcode⟩ := Option.bind_eq_some_iff.1 hcode
    obtain ⟨b, hb, hbody⟩ := List.exists_of_findSome?_eq_some hcode
    split at hbody
    · cases hbody
      exact ⟨m, hm, hb⟩
    · cases hbody
  · cases h

/-- **The targets of a plan** are in a row, since the attributes of the methods are, and the plan goes
through the methods in their order. -/
theorem ascend_targets (hread : ClassFile.read bytes = .ok c) :
    Span.Ascend c.poolEnd bytes.length ((c.targets plan).map Attribute.span) := by
  obtain ⟨-, -, hrow, -⟩ := ClassFile.spans_of_read hread
  rw [ownAttributes, List.map_append] at hrow
  have hinside (a : Attribute) (m : MethodInfo) (hm : m ∈ c.methods) (ha : a ∈ m.attributes) :
      a.span ∈ (c.methods.flatMap MethodInfo.attributes).map Attribute.span :=
    List.mem_map_of_mem (List.mem_flatMap.2 ⟨m, hm, ha⟩)
  have hapart := (List.pairwise_append.1 hrow.apart).1
  rw [List.pairwise_map, List.pairwise_flatMap] at hapart
  constructor
  · intro s hs
    obtain ⟨a, ha, rfl⟩ := List.mem_map.1 hs
    obtain ⟨entry, -, htarget⟩ := List.mem_filterMap.1 ha
    obtain ⟨m, hm, hmem⟩ := of_target? htarget
    exact hrow.inside _ (List.mem_append_left _ (hinside a m (List.mem_of_getElem? hm) hmem))
  · rw [List.pairwise_map, targets, List.pairwise_filterMap]
    refine plan.ascending.imp fun {entry later} hlt a ha a' ha' => ?_
    obtain ⟨m, hm, hmem⟩ := of_target? ha
    obtain ⟨m', hm', hmem'⟩ := of_target? ha'
    obtain ⟨hentry, rfl⟩ := List.getElem?_eq_some_iff.1 hm
    obtain ⟨hlater, rfl⟩ := List.getElem?_eq_some_iff.1 hm'
    exact List.pairwise_iff_getElem.1 hapart.2 _ _ hentry hlater hlt a hmem a' hmem'

/-- **The splices of a plan** cut a class file at ascending places behind its constant pool. -/
theorem ascend_splices (hread : ClassFile.read bytes = .ok c)
    (hrun : plan.entries.mapM (spliceMethod bytes c.methods.toArray) (.start c.pool.count)
      = .ok (results, x)) :
    Span.Ascend c.poolEnd bytes.length ((results.filterMap id).map Splice.span) := by
  obtain ⟨-, hresults⟩ := PoolExtension.mapM_spliceMethod_spec PoolExtension.sound_start hrun
  have hspans : (results.filterMap id).map Splice.span = (c.targets plan).map Attribute.span :=
    (map_eq_map_of_forall₂ (forall₂_targets hresults) fun _ _ h => h.1.symm).symm
  exact hspans ▸ ascend_targets hread

/-- The count of constants that is written after a plan was carried out is their number, if those of the
class can be counted. -/
theorem toNat_count_of_run (hslots : c.pool.slots.size ≤ 65535)
    (hrun : plan.entries.mapM (spliceMethod bytes c.methods.toArray) (.start c.pool.count)
      = .ok (results, x)) :
    x.count.toNat = c.pool.slots.size + x.appended.length := by
  have hcount : c.pool.count.toNat = c.pool.slots.size :=
    UInt16.toNat_ofNat_of_lt' (Nat.lt_succ_of_le hslots)
  obtain ⟨hx, -⟩ := PoolExtension.mapM_spliceMethod_spec PoolExtension.sound_start hrun
  rw [← hcount, ← hx.next]
  exact UInt16.toNat_ofNat_of_lt' (Nat.lt_succ_of_le hx.next_le)

/-- **The arithmetic of weaving** cuts nothing off. Moving any body of a class that was read is exact,
whatever hooks it receives, if the new body is not too long; the parts of the class file that are copied
lie in it, one behind the other; and the count of constants is their number, if those of the class can be
counted. -/
theorem weave_exact (hread : ClassFile.read bytes = .ok c) :
    (∀ (body : Code) (hooks : HookRefs) (instructions : List Instruction), c.HasBody body →
      Body.decode body.code = .ok instructions → (Layout.of instructions hooks).newLength ≤ 65535 →
      body.MovesExactly bytes hooks instructions)
    ∧ 10 ≤ c.poolEnd ∧ c.poolEnd ≤ bytes.length
    ∧ ∀ (plan : WeavePlan) (results : List (Option Splice)) (x : PoolExtension),
      (plan.entries.mapM (spliceMethod bytes c.methods.toArray)).run (.start c.pool.count)
        = .ok (results, x) →
      Span.Ascend c.poolEnd bytes.length ((results.filterMap id).map Splice.span)
      ∧ (c.pool.slots.size ≤ 65535 → x.count.toNat = c.pool.slots.size + x.appended.length) := by
  obtain ⟨hhead, hpool, -, -⟩ := ClassFile.spans_of_read hread
  refine ⟨fun body hooks instructions hbody hdecode hlength =>
    CodeOf.movesExactly hread hbody hdecode hlength, hhead, hpool, fun plan results x hrun => ?_⟩
  exact ⟨ascend_splices hread hrun, fun hslots => toNat_count_of_run hslots hrun⟩

/-- A body with a switch, a handler, frames, line numbers and a variable is moved exactly, with a hook
that is called where it is entered and left. -/
theorem weave_exact_selecting :
    ∃ c body instructions, ClassFile.read selecting = .ok c ∧ c.HasBody body
      ∧ Body.decode body.code = .ok instructions
      ∧ (Layout.of instructions ⟨[9], [10]⟩).newLength ≤ 65535
      ∧ body.MovesExactly selecting ⟨[9], [10]⟩ instructions
      ∧ 10 ≤ c.poolEnd ∧ c.poolEnd ≤ selecting.length := by
  have hany : anyBody selecting (fun body => match Body.decode body.code with
      | .ok instructions => (Layout.of instructions ⟨[9], [10]⟩).newLength ≤ 65535
      | .error _ => false) = true := by
    decide +kernel
  obtain ⟨c, body, hread, hbody, htest⟩ := exists_of_anyBody hany
  split at htest
  · next instructions hdecode =>
    obtain ⟨hmoves, hhead, hpool, -⟩ := weave_exact hread
    have hlength := of_decide_eq_true htest
    exact ⟨c, body, instructions, hread, hbody, hdecode, hlength,
      hmoves body _ instructions hbody hdecode hlength, hhead, hpool⟩
  · cases htest

/-- **A pool with a slot too many** is counted wrong: of 65542 constants, unused slots included, the woven
class tells 6. -/
theorem count_padded :
    ClassFile.read (paddedBytes 65528) = .ok (padded 65528)
      ∧ ∃ results x out,
        (entering.entries.mapM (spliceMethod (paddedBytes 65528) (padded 65528).methods.toArray)).run
          (.start (padded 65528).pool.count) = .ok (results, x)
        ∧ weave (paddedBytes 65528) (padded 65528) entering = .ok (some out)
        ∧ x.count.toNat = 6 ∧ (padded 65528).pool.slots.size + x.appended.length = 65542 := by
  obtain ⟨results, x, hrun, rfl, out, hout⟩ := exists_run_padded (paddedBytes 65528)
  exact ⟨read_paddedBytes (by decide), results, _, out, hrun, hout, rfl, by rw [size_slots_padded]; rfl⟩

end ClassFile

end AdviceWeaver

import AdviceWeaver.Proofs.Weaving.Frames

/-!
# What becomes of the attributes of a body

An attribute that a body keeps is a table of offsets, which is written with new offsets, or it is
copied from the class file (`NewAttribute`, `Attribute.Rewritten`). A body with hooks is the old one
rebuilt, and what it keeps of its attributes moves as control lands (`CodeOf.Rewrites`).

## Main results

* `Layout.rewritten_of_mapAttribute` — what is written for an attribute of a body.
* `CodeOf.rewrites_of_insertHooks` — what is written for a body, attributes included.
-/

namespace AdviceWeaver

/-! ### New attributes -/

/-- What stands for an attribute in the new body. -/
inductive NewAttribute where
  | frameTable (name : UInt16) (frames : List StackFrame)
  | lineTable (name : UInt16) (entries : List LineEntry)
  | variableTable (name : UInt16) (entries : List VariableEntry)
  /-- The octets of the old attribute. -/
  | copied (octets : Bytes)

/-- The octets that are written for an attribute. -/
def NewAttribute.encode : NewAttribute → Bytes
  | .frameTable name frames => encodeAttribute name (encodeTable StackFrame.encode frames)
  | .lineTable name entries => encodeAttribute name (encodeTable LineEntry.encode entries)
  | .variableTable name entries => encodeAttribute name (encodeTable VariableEntry.encode entries)
  | .copied octets => octets

/-- The content of a code attribute with new attributes. -/
def CodeOf.write (body : CodeOf NewAttribute) : Bytes :=
  body.front ++ encodeTable NewAttribute.encode body.attributes

/-- Whether an attribute of a body holds offsets that are written anew. -/
def ContentOf.isTable {α : Type} : ContentOf α → Bool
  | .stackMapTable _ | .lineNumberTable _ | .localVariableTable _ | .localVariableTypeTable _ => true
  | _ => false

/-- What is written for an attribute whose offsets move by `R` and whose variable entries change by
`V`. -/
inductive Attribute.Rewritten (classBytes : Bytes) (R : Nat → Nat → Prop)
    (V : VariableEntry → VariableEntry → Prop) : Attribute → NewAttribute → Prop
  | frameTable {name : UInt16} {span : Span} {frames frames' : List StackFrame} :
    StackFrame.TableMoved R frames frames' →
    ((∀ frame ∈ frames, frame.Writable) → ∀ frame ∈ frames', frame.Writable) →
    Rewritten classBytes R V ⟨name, span, .stackMapTable frames⟩ (.frameTable name frames')
  | lineTable {name : UInt16} {span : Span} {entries entries' : List LineEntry} :
    List.Forall₂ (LineEntry.Moved R) entries entries' →
    Rewritten classBytes R V ⟨name, span, .lineNumberTable entries⟩ (.lineTable name entries')
  | variableTable {name : UInt16} {span : Span} {entries entries' : List VariableEntry} :
    List.Forall₂ V entries entries' →
    Rewritten classBytes R V ⟨name, span, .localVariableTable entries⟩ (.variableTable name entries')
  | variableTypeTable {name : UInt16} {span : Span} {entries entries' : List VariableEntry} :
    List.Forall₂ V entries entries' →
    Rewritten classBytes R V ⟨name, span, .localVariableTypeTable entries⟩
      (.variableTable name entries')
  | copied {name : UInt16} {span : Span} {content : Content} {octets : Bytes} :
    content.isTable = false → classBytes.slice? span.start span.stop = some octets →
    Rewritten classBytes R V ⟨name, span, content⟩ (.copied octets)

/-- An attribute that was rewritten by a relation was so by one that holds more often. -/
theorem Attribute.Rewritten.mono {classBytes : Bytes} {R S : Nat → Nat → Prop}
    {V W : VariableEntry → VariableEntry → Prop} {a : Attribute} {a' : NewAttribute}
    (h : a.Rewritten classBytes R V a') (hRS : ∀ m n, R m n → S m n) (hVW : ∀ e e', V e e' → W e e') :
    a.Rewritten classBytes S W a' := by
  cases h with
  | frameTable h hwritable => exact .frameTable (h.mono hRS) hwritable
  | lineTable h => exact .lineTable (h.imp fun _ _ => LineEntry.Moved.mono hRS)
  | variableTable h => exact .variableTable (h.imp hVW)
  | variableTypeTable h => exact .variableTypeTable (h.imp hVW)
  | copied htable hslice => exact .copied htable hslice

/-! ### Mapping attributes -/

namespace Layout

variable {instructions : List Instruction} {hooks : HookRefs}

/-- A line that is mapped moved. -/
theorem mapLine_moved {layout : Layout} (hfits : layout.Fits) {e e' : LineEntry}
    (h : layout.mapLine e = .ok e') : e.Moved layout.Maps e' := by
  simp only [mapLine, except_bind_eq_ok, except_pure_eq_ok] at h
  obtain ⟨start, hstart, rfl⟩ := h
  exact ⟨map?_of_map hfits hstart, rfl⟩

/-- A variable stops where its old end is mapped: not in front of its start, as offsets keep their
order. -/
theorem mapVariable_moved (hlength : (Layout.of instructions hooks).newLength ≤ 65535)
    {e e' : VariableEntry} (h : (Layout.of instructions hooks).mapVariable e = .ok e') :
    e.Moved (Layout.of instructions hooks).Maps e' := by
  have hfits := fits_of hlength
  simp only [mapVariable, except_bind_eq_ok] at h
  obtain ⟨start, hmap, h⟩ := h
  have hstart := map?_of_map hfits hmap
  split at h
  · next stop hstop =>
    cases h
    have hle : start.toNat ≤ stop := by
      obtain hzero | hpos := Nat.eq_zero_or_pos e.length.toNat
      · rw [hzero, Nat.add_zero, hstart, Option.some.injEq] at hstop
        exact Nat.le_of_eq hstop
      · exact Nat.le_of_lt (map?_lt hstart hstop (Nat.lt_add_of_pos_right hpos))
    have hlength : (UInt16.ofNat (stop - start.toNat)).toNat = stop - start.toNat := by
      have hstopLe := hfits.map?_le hstop
      exact UInt16.toNat_ofNat_of_lt' (by simp only [UInt16.size]; omega)
    refine ⟨hstart, ?_, rfl, rfl, rfl⟩
    rw [Maps, VariableEntry.stop, VariableEntry.stop, hstop, hlength, Nat.add_sub_cancel' hle]
  · cases h

/-- **What is written for an attribute**: its table, moved as the layout moves offsets, or its
octets. -/
theorem rewritten_of_mapAttribute (hlength : (Layout.of instructions hooks).newLength ≤ 65535)
    {classBytes octets : Bytes} {a : Attribute}
    (h : (Layout.of instructions hooks).mapAttribute classBytes a = .ok octets) :
    ∃ a' : NewAttribute, octets = a'.encode
      ∧ a.Rewritten classBytes (Layout.of instructions hooks).Maps
          (VariableEntry.Moved (Layout.of instructions hooks).Maps) a' := by
  have hfits := fits_of hlength
  obtain ⟨name, span, content⟩ := a
  cases content with
  | stackMapTable frames =>
    simp only [mapAttribute, mapContent, except_bind_eq_ok, except_pure_eq_ok] at h
    obtain ⟨_, ⟨frames', hframes, rfl⟩, h⟩ := h
    obtain rfl := except_pure_eq_ok.1 h
    exact ⟨.frameTable name frames', rfl, .frameTable (mapFrames_moved hlength hframes)
      fun hwritable => (mapFrames_spec hlength hwritable hframes).2.1⟩
  | lineNumberTable entries =>
    simp only [mapAttribute, mapContent, except_bind_eq_ok, except_pure_eq_ok, mapM_eq_ok_iff] at h
    obtain ⟨_, ⟨entries', hentries, rfl⟩, h⟩ := h
    obtain rfl := except_pure_eq_ok.1 h
    exact ⟨.lineTable name entries', rfl, .lineTable (hentries.imp fun _ _ => mapLine_moved hfits)⟩
  | localVariableTable entries =>
    simp only [mapAttribute, mapContent, except_bind_eq_ok, except_pure_eq_ok, mapM_eq_ok_iff] at h
    obtain ⟨_, ⟨entries', hentries, rfl⟩, h⟩ := h
    obtain rfl := except_pure_eq_ok.1 h
    exact ⟨.variableTable name entries', rfl,
      .variableTable (hentries.imp fun _ _ => mapVariable_moved hlength)⟩
  | localVariableTypeTable entries =>
    simp only [mapAttribute, mapContent, except_bind_eq_ok, except_pure_eq_ok, mapM_eq_ok_iff] at h
    obtain ⟨_, ⟨entries', hentries, rfl⟩, h⟩ := h
    obtain rfl := except_pure_eq_ok.1 h
    exact ⟨.variableTable name entries', rfl,
      .variableTypeTable (hentries.imp fun _ _ => mapVariable_moved hlength)⟩
  | _ =>
    simp only [mapAttribute, mapContent, except_bind_eq_ok] at h
    obtain ⟨_, hnone, h⟩ := h
    cases hnone
    dsimp only at h
    split at h
    · next hslice =>
      obtain rfl := except_pure_eq_ok.1 h
      exact ⟨.copied _, rfl, .copied rfl hslice⟩
    · cases h

end Layout

/-! ### Bodies -/

/-- The handlers of a rebuilt body moved to where control lands. -/
theorem Rebuilt.handlers_moved {α β : Type} {hooks : HookRefs} {pairs : List Replacement}
    {old : CodeOf α} {new : CodeOf β} (h : Rebuilt hooks pairs old new) :
    List.Forall₂ (ExceptionHandler.Moved (hooks.Lands pairs)) old.handlers new.handlers :=
  h.handlers.imp fun _ _ ⟨hstart, hstop, hhandler, hcatch⟩ => ⟨hstart, hstop, hhandler, hcatch⟩

/-- The body `new` is what is written for `body` with hooks, its instructions being replaced as
`pairs` say, and its attributes move as control lands. -/
structure CodeOf.Rewrites (classBytes : Bytes) (hooks : HookRefs) (pairs : List Replacement)
    (body : Code) (new : CodeOf NewAttribute) : Prop where
  rebuilt : Rebuilt hooks pairs body new
  mended : Layout.Mended hooks pairs
  mends :
    List.Forall₂ (fun site m => (Layout.of (pairs.map Prod.fst) hooks).mend site = .ok m)
      (Layout.of (pairs.map Prod.fst) hooks).sites (pairs.map Prod.snd)
  newLength : (Layout.of (pairs.map Prod.fst) hooks).newLength ≤ 65535
  maxStack : new.maxStack = body.maxStack
  maxLocals : new.maxLocals = body.maxLocals
  attributes :
    List.Forall₂
      (Attribute.Rewritten classBytes (hooks.Lands pairs) (VariableEntry.Moved (hooks.Lands pairs)))
      (body.attributes.filter Attribute.isKept) new.attributes

/-- **What is written for a body** is the body rebuilt, with attributes that move as control lands. -/
theorem CodeOf.rewrites_of_insertHooks {body : Code} {classBytes out : Bytes} {hooks : HookRefs}
    (h : body.insertHooks classBytes hooks = .ok out) :
    ∃ (pairs : List Replacement) (new : CodeOf NewAttribute),
      out = new.write ∧ Rewrites classBytes hooks pairs body new := by
  obtain ⟨pairs, new, rfl, hnew⟩ := CodeOf.hooked_of_insertHooks h
  obtain ⟨maxStack, maxLocals, code, handlers, octets⟩ := new
  obtain ⟨attributes, rfl, hattributes⟩ := exists_map_of_forall₂ hnew.attributes fun _ _ =>
    Layout.rewritten_of_mapAttribute hnew.newLength
  have hmaps : (Layout.of (pairs.map Prod.fst) hooks).Maps = hooks.Lands pairs :=
    funext fun old => funext fun new => propext hnew.mended.map?_eq_some_iff
  rw [hmaps] at hattributes
  refine ⟨pairs, ⟨maxStack, maxLocals, code, handlers, attributes⟩, ?_, ?_, hnew.mended, hnew.mends,
    hnew.newLength, hnew.maxStack, hnew.maxLocals, hattributes⟩
  · simp only [CodeOf.encode, CodeOf.write, CodeOf.front, encodeTable, List.length_map,
      List.flatMap_map, id_eq]
  · obtain ⟨hold, hdecode, hskeleton, hdistances, hhandlers⟩ := hnew.rebuilt
    exact ⟨hold, hdecode, hskeleton, hdistances, hhandlers⟩

end AdviceWeaver

import AdviceWeaver.Proofs.ClassFile.Bodies
import AdviceWeaver.Proofs.Weaving.Refusals

/-!
# When hooks can be inserted

Hooks can be inserted into a body of a class exactly if the body says what it says of its own
instructions (`CodeOf.WellTargeted`), and is small enough for what it grows by (`CodeOf.Admits`).
What holds no offsets never stands in the way: it is copied from where it was read.

## Main results

* `Layout.exists_map?_iff`, `Layout.exists_mapTarget_iff` — which offsets and targets are mapped.
* `CodeOf.insertHooks_succeeds_iff` — when hooks can be inserted into a body of a class.
-/

namespace AdviceWeaver

/-! ### Offsets of a body -/

section Offsets

variable {α : Type} (body : CodeOf α)

/-- An instruction starts at the offset. -/
def CodeOf.Starts (n : Nat) : Prop :=
  ∃ i, body.At n i

/-- An instruction starts at the offset, or the code ends there. -/
def CodeOf.Bounds (n : Nat) : Prop :=
  body.Starts n ∨ n = body.code.length

end Offsets

/-- Whatever refers to an offset of the body refers to an instruction: tables may also refer to the
end of the code, but branches and switches may not. -/
structure CodeOf.WellTargeted (body : Code) : Prop where
  targets {pc : Nat} {i : Instruction} {d : Int} : body.At pc i → d ∈ i.distances →
    ∃ target : Nat, (target : Int) = pc + d ∧ body.Starts target
  handlers {h : ExceptionHandler} {n : Nat} : h ∈ body.handlers → n ∈ h.offsets → body.Bounds n
  attributes {a : Attribute} {n : Nat} :
    a ∈ body.attributes → n ∈ a.content.offsets → body.Bounds n

/-- A body that is well targeted, and not too large when hooks are inserted: neither as a whole nor
between a short branch and its target. -/
structure CodeOf.Admits (body : Code) (hooks : HookRefs) (instructions : List Instruction) : Prop where
  decode : Body.decode body.code = .ok instructions
  length : (Layout.of instructions hooks).newLength ≤ 65535
  wellTargeted : body.WellTargeted
  reaches {site : Site} :
    site ∈ (Layout.of instructions hooks).sites → (Layout.of instructions hooks).Reaches site

/-! ### What is mapped -/

section Mapped

variable {α : Type} {body : CodeOf α} {instructions : List Instruction}
  (hdecode : Body.decode body.code = .ok instructions) (hooks : HookRefs)
include hdecode

/-- An instruction starts behind those in front of it. -/
theorem CodeOf.starts_iff {n : Nat} :
    body.Starts n
      ↔ ∃ before i after, instructions = before ++ i :: after ∧ n = Body.length before := by
  constructor
  · rintro ⟨i, before, after, heq, rfl⟩
    exact ⟨before, i, after, Except.ok.inj (hdecode.symm.trans heq), rfl⟩
  · rintro ⟨before, i, after, rfl, rfl⟩
    exact ⟨i, before, after, hdecode, rfl⟩

/-- **The offsets that are mapped** are those of instructions and the end of the code. -/
theorem Layout.exists_map?_iff {n : Nat} :
    (∃ new, (Layout.of instructions hooks).map? n = some new) ↔ body.Bounds n := by
  simp only [map?_eq_some_iff, CodeOf.Bounds, CodeOf.starts_iff hdecode,
    ← Body.length_of_decode hdecode]
  constructor
  · rintro ⟨_, before, after, rfl, rfl, -⟩
    cases after with
    | nil => exact .inr (by simp)
    | cons i after => exact .inl ⟨before, i, after, rfl, rfl⟩
  · rintro (⟨before, i, after, rfl, rfl⟩ | rfl)
    · exact ⟨_, before, i :: after, rfl, rfl, rfl⟩
    · exact ⟨_, instructions, [], (List.append_nil _).symm, rfl, rfl⟩

/-- **The targets that are mapped** are instructions. -/
theorem Layout.exists_mapTarget_iff {pc : Nat} {d : Int} :
    (∃ new, (Layout.of instructions hooks).mapTarget pc d = .ok new)
      ↔ ∃ target : Nat, (target : Int) = pc + d ∧ body.Starts target := by
  simp only [mapTarget_eq_ok_iff, oldLength_of]
  constructor
  · rintro ⟨new, old, hmap, hlt, heq⟩
    refine ⟨old, heq, ?_⟩
    obtain hstarts | hend := (exists_map?_iff hdecode hooks).1 ⟨new, hmap⟩
    · exact hstarts
    · rw [hend, Body.length_of_decode hdecode] at hlt
      exact absurd hlt (Nat.lt_irrefl _)
  · rintro ⟨target, heq, hstarts⟩
    obtain ⟨new, hmap⟩ := (exists_map?_iff hdecode hooks).2 (.inl hstarts)
    obtain ⟨before, i, after, rfl, rfl⟩ := (CodeOf.starts_iff hdecode).1 hstarts
    refine ⟨new, _, hmap, ?_, heq⟩
    have hpos := i.length_pos
    rw [Body.length_append, Body.length_cons]
    omega

/-- Instructions have sites. -/
theorem Layout.exists_site {pc : Nat} {i : Instruction} (hat : body.At pc i) :
    ∃ site ∈ (Layout.of instructions hooks).sites,
      site.pc = pc ∧ site.instruction.distances = i.distances := by
  obtain ⟨before, after, heq, rfl⟩ := hat
  obtain rfl := Except.ok.inj (hdecode.symm.trans heq)
  exact ⟨_, mem_sites_iff.2 ⟨before, i, after, rfl, rfl⟩, rfl, by simp [place]⟩

/-- Sites are those of instructions. -/
theorem Layout.at_of_mem_sites {site : Site} (hsite : site ∈ (Layout.of instructions hooks).sites) :
    ∃ i, body.At site.pc i ∧ site.instruction.distances = i.distances := by
  obtain ⟨before, i, after, rfl, rfl⟩ := mem_sites_iff.1 hsite
  exact ⟨i, ⟨before, after, hdecode, rfl⟩, by simp [place]⟩

end Mapped

/-! ### What succeeds has landing places -/

namespace Layout

variable {layout : Layout}

/-- A branch that was mended reaches its new target. -/
theorem reaches_of_mend {site : Site} {m : Instruction} (h : layout.mend site = .ok m) :
    layout.Reaches site := by
  intro op d new hi hnew
  simp only [mend, hi, except_bind_eq_ok] at h
  obtain ⟨new', hnew', h⟩ := h
  obtain rfl : new' = new := Except.ok.inj (hnew'.symm.trans hnew)
  split at h
  · cases h
  · omega

/-- What holds no offsets is copied. -/
theorem mapAttribute_of_isTable {classBytes octets : Bytes} {a : Attribute}
    (htable : a.content.isTable = false)
    (hslice : classBytes.slice? a.span.start a.span.stop = some octets) :
    layout.mapAttribute classBytes a = .ok octets := by
  have hcontent : layout.mapContent a.content = .ok none := by
    obtain ⟨name, span, content⟩ := a
    cases content with
    | stackMapTable | lineNumberTable | localVariableTable | localVariableTypeTable => cases htable
    | _ => rfl
  refine except_bind_eq_ok.2 ⟨none, hcontent, ?_⟩
  simp only [hslice]
  rfl

/-- A handler that is mapped has a landing place for each of its offsets. -/
theorem exists_of_mapHandler (hfits : layout.Fits) {h h' : ExceptionHandler}
    (hmap : layout.mapHandler h = .ok h') : ∀ n ∈ h.offsets, ∃ new, layout.map? n = some new := by
  simp only [mapHandler, except_bind_eq_ok, except_pure_eq_ok] at hmap
  obtain ⟨start, hstart, stop, hstop, handler, hhandler, -⟩ := hmap
  simp only [ExceptionHandler.offsets, List.forall_mem_cons, List.not_mem_nil, false_implies,
    implies_true, and_true]
  exact ⟨⟨_, map?_of_map hfits hstart⟩, ⟨_, map?_of_map hfits hstop⟩, ⟨_, map?_of_map hfits hhandler⟩⟩

end Layout

/-- The offsets of what is written are those that the old ones moved to. -/
theorem Attribute.Rewritten.exists_offset {classBytes : Bytes} {R : Nat → Nat → Prop} {a : Attribute}
    {a' : NewAttribute} (h : a.Rewritten classBytes R (VariableEntry.Moved R) a') :
    ∀ n ∈ a.content.offsets, ∃ n', R n n' := by
  have hvariables {entries entries' : List VariableEntry}
      (h : List.Forall₂ (VariableEntry.Moved R) entries entries') :
      ∀ n ∈ entries.flatMap fun e => [e.start.toNat, e.stop], ∃ n', R n n' := by
    intro n hn
    obtain ⟨e, he, hn⟩ := List.mem_flatMap.1 hn
    obtain ⟨e', -, hmoved⟩ := exists_of_forall₂_left h he
    obtain rfl | rfl : n = e.start.toNat ∨ n = e.stop := by simpa using hn
    · exact ⟨_, hmoved.start⟩
    · exact ⟨_, hmoved.stop⟩
  intro n hn
  cases h with
  | frameTable hmoved =>
    obtain ⟨placed, hplaced, hn⟩ := List.mem_flatMap.1 hn
    obtain ⟨placed', -, hmoved⟩ := exists_of_forall₂_left hmoved hplaced
    obtain rfl | hn := List.mem_cons.1 hn
    · exact ⟨_, hmoved.offset⟩
    · obtain ⟨n', -, hR⟩ := exists_of_forall₂_left hmoved.origins hn
      exact ⟨n', hR⟩
  | lineTable hentries =>
    obtain ⟨e, he, rfl⟩ := List.mem_map.1 hn
    obtain ⟨e', -, hmoved⟩ := exists_of_forall₂_left hentries he
    exact ⟨_, hmoved.start⟩
  | variableTable hentries | variableTypeTable hentries => exact hvariables hentries n hn
  | @copied _ _ content _ htable =>
    cases content with
    | stackMapTable | lineNumberTable | localVariableTable | localVariableTypeTable => cases htable
    | _ => cases hn

/-- What is dropped holds no offsets. -/
theorem Attribute.isKept_of_mem_offsets {a : Attribute} {n : Nat} (h : n ∈ a.content.offsets) :
    a.isKept = true := by
  obtain ⟨name, span, content⟩ := a
  cases content with
  | visibleTypeAnnotations | invisibleTypeAnnotations => cases h
  | _ => rfl

/-! ### Bodies -/

section Bodies

variable {body : Code} {classBytes : Bytes} {hooks : HookRefs} {instructions : List Instruction}

/-- A body with hooks admits them. -/
theorem CodeOf.admits_of_insertHooks {out : Bytes} (h : body.insertHooks classBytes hooks = .ok out) :
    ∃ instructions, body.Admits hooks instructions := by
  obtain ⟨instructions, mended, handlers, attributes, hdecode, hlength, hmended, hhandlers,
    hattributes, -⟩ := CodeOf.insertHooks_eq_ok_iff.1 h
  have hfits := Layout.fits_of hlength
  refine ⟨instructions, hdecode, hlength, ⟨?_, ?_, ?_⟩, ?_⟩
  · intro pc i d hat hd
    obtain ⟨site, hsite, rfl, hsame⟩ := Layout.exists_site hdecode hooks hat
    obtain ⟨m, -, hm⟩ := exists_of_forall₂_left hmended hsite
    obtain ⟨d', -, old, new, hmap, hlt, hold, -⟩ :=
      exists_of_forall₂_left (Layout.mends_of_mend hfits hsite hm).distances (hsame ▸ hd)
    refine (Layout.exists_mapTarget_iff hdecode hooks).1 ⟨new, ?_⟩
    exact Layout.mapTarget_eq_ok_iff.2 ⟨old, hmap, hlt, hold⟩
  · intro handler n hmem hn
    obtain ⟨handler', -, hmap⟩ := exists_of_forall₂_left hhandlers hmem
    exact (Layout.exists_map?_iff hdecode hooks).1 (Layout.exists_of_mapHandler hfits hmap n hn)
  · intro a n ha hn
    have hkept := List.mem_filter.2 ⟨ha, Attribute.isKept_of_mem_offsets hn⟩
    obtain ⟨octets, -, hmap⟩ := exists_of_forall₂_left hattributes hkept
    obtain ⟨a', -, hrewritten⟩ := Layout.rewritten_of_mapAttribute hlength hmap
    exact (Layout.exists_map?_iff hdecode hooks).1 (hrewritten.exists_offset n hn)
  · intro site hsite
    obtain ⟨m, -, hm⟩ := exists_of_forall₂_left hmended hsite
    exact Layout.reaches_of_mend hm

/-- **A well-targeted body** is refused for its growth only. -/
theorem CodeOf.WellTargeted.isGrowth_of_refused (h : body.WellTargeted)
    (hdecode : Body.decode body.code = .ok instructions)
    (hslice : ∀ a ∈ body.attributes, ∃ octets,
      classBytes.slice? a.span.start a.span.stop = some octets)
    {e : WeaveError} (he : body.Refused classBytes hooks e) : e.isGrowth = true := by
  have hsame {other : List Instruction} (hother : Body.decode body.code = .ok other) :
      other = instructions := Except.ok.inj (hother.symm.trans hdecode)
  have hfound {offsets : List Nat} (hbounds : ∀ n ∈ offsets, body.Bounds n) :
      ¬ (Layout.of instructions hooks).Lost offsets e := by
    rintro ⟨-, n, hn, hnone⟩
    obtain ⟨new, hmap⟩ := (Layout.exists_map?_iff hdecode hooks).2 (hbounds n hn)
    rw [hnone] at hmap
    cases hmap
  cases he with
  | decode hother =>
    rw [hdecode] at hother
    cases hother
  | length => rfl
  | @mend _ site _ hother hsite hmend =>
    obtain rfl := hsame hother
    obtain ⟨-, d, hd, hnone⟩ | ⟨rfl, -⟩ := Layout.mend_eq_error hmend
    · obtain ⟨i, hat, hdistances⟩ := Layout.at_of_mem_sites hdecode hooks hsite
      obtain ⟨new, hnew⟩ :=
        (Layout.exists_mapTarget_iff hdecode hooks).2 (h.targets hat (hdistances ▸ hd))
      exact absurd hnew (hnone new)
    · rfl
  | handler hother hmem hmap =>
    obtain rfl := hsame hother
    exact absurd (Layout.lost_of_mapHandler hmap) (hfound fun n hn => h.handlers hmem hn)
  | nested hother ha hmap =>
    obtain rfl := hsame hother
    obtain hlost | ⟨-, hnone⟩ := Layout.mapAttribute_eq_error hmap
    · exact absurd hlost (hfound fun n hn => h.attributes ha hn)
    · obtain ⟨octets, hsome⟩ := hslice _ ha
      rw [hnone] at hsome
      cases hsome

end Bodies

/-- **When hooks can be inserted** into a body of a class: exactly if it admits them. What holds no
offsets is always copied, and a well-targeted body is refused for its growth only. -/
theorem CodeOf.insertHooks_succeeds_iff {bytes : Bytes} {c : ClassFile} {body : Code}
    (hread : ClassFile.read bytes = .ok c) (hbody : c.HasBody body) (hooks : HookRefs) :
    ((∃ out, body.insertHooks bytes hooks = .ok out) ↔ ∃ instructions, body.Admits hooks instructions)
      ∧ (∀ a ∈ body.attributes, a.content.isTable = false → ∀ layout : Layout,
          ∃ octets, bytes.HasAt a.span.start octets ∧ layout.mapAttribute bytes a = .ok octets)
      ∧ ∀ instructions, Body.decode body.code = .ok instructions → body.WellTargeted →
          ∀ e, body.insertHooks bytes hooks = .error e →
            (∃ length, e = .codeTooLarge length) ∨ ∃ pc, e = .branchOverflow pc := by
  have hslice (a : Attribute) (ha : a ∈ body.attributes) :=
    (ClassFile.readFrom_of_hasBody hread hbody a ha).exists_slice
  have hgrowth {instructions : List Instruction} {e : WeaveError}
      (hdecode : Body.decode body.code = .ok instructions) (htargeted : body.WellTargeted)
      (he : body.insertHooks bytes hooks = .error e) :=
    (CodeOf.refused_of_insertHooks he).growth (htargeted.isGrowth_of_refused hdecode
      (fun a ha => (hslice a ha).imp fun _ => And.right) (CodeOf.refused_of_insertHooks he))
  refine ⟨⟨fun ⟨out, hout⟩ => admits_of_insertHooks hout, ?_⟩, ?_, ?_⟩
  · rintro ⟨instructions, hadmits⟩
    cases hresult : body.insertHooks bytes hooks with
    | ok out => exact ⟨out, rfl⟩
    | error e =>
      obtain ⟨other, hother, hcause⟩ := hgrowth hadmits.decode hadmits.wellTargeted hresult
      obtain rfl : other = instructions := Except.ok.inj (hother.symm.trans hadmits.decode)
      obtain ⟨hlarge, -⟩ | ⟨site, hsite, hshort, -⟩ := hcause
      · exact absurd hadmits.length (Nat.not_le.2 hlarge)
      · exact absurd (hadmits.reaches hsite) hshort
  · intro a ha htable layout
    obtain ⟨octets, hat, hsome⟩ := hslice a ha
    exact ⟨octets, hat, Layout.mapAttribute_of_isTable htable hsome⟩
  · intro instructions hdecode htargeted e he
    obtain ⟨_, -, ⟨-, rfl⟩ | ⟨site, -, -, rfl⟩⟩ := hgrowth hdecode htargeted he
    · exact .inl ⟨_, rfl⟩
    · exact .inr ⟨site.pc, rfl⟩

/-- A body with a switch, a handler and all tables admits hooks. -/
theorem selecting_admits :
    ∃ (c : ClassFile) (body : Code) (instructions : List Instruction),
      ClassFile.read ClassFile.selecting = .ok c ∧ c.HasBody body
        ∧ body.Admits ⟨[5, 6], [7]⟩ instructions := by
  have hany : ClassFile.anyBody ClassFile.selecting
      (fun body => (body.insertHooks ClassFile.selecting ⟨[5, 6], [7]⟩).isOk) = true := by
    decide +kernel
  obtain ⟨c, body, hread, hbody, hinserts⟩ := ClassFile.exists_of_anyBody hany
  obtain ⟨instructions, hadmits⟩ :=
    (CodeOf.insertHooks_succeeds_iff hread hbody ⟨[5, 6], [7]⟩).1.1 (exists_of_isOk hinserts)
  exact ⟨c, body, instructions, hread, hbody, hadmits⟩

end AdviceWeaver

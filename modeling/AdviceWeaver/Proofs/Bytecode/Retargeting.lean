import AdviceWeaver.Proofs.Bytecode.NewBody

/-!
# Instructions with hooks, one by one

A body with hooks, told instruction by instruction: the enter calls, as many instructions that do
nothing as bring the old offset 0 to a multiple of four, and every old instruction behind the exit
calls, if it is a return. An old instruction keeps its opcode and its operands. Only its distances
change, so that each leads to what became of its old target (`Instruction.Retargeted`), and the
padding of a switch, which is zeros, as many as its new offset asks for (`Instruction.repad`).

## Main results

* `Layout.retargeted_of_mend` — mending changes distances only.
* `CodeOf.retargets_insertHooks` — what is written is the old body, instruction by instruction.
-/

namespace AdviceWeaver

/-- The instruction `m` is `i` but for its distances: where `i` has the distance `d`, `m` has a
distance `d'` with `leads d d'`. -/
inductive Instruction.Retargeted (leads : Int → Int → Prop) : Instruction → Instruction → Prop
  | plain {op : UInt8} {operands : Bytes} :
    Retargeted leads (.plain op operands) (.plain op operands)
  | branch {op : UInt8} {d d' : Int16} :
    leads d.toInt d'.toInt → Retargeted leads (.branch op d) (.branch op d')
  | wideBranch {op : UInt8} {d d' : Int32} :
    leads d.toInt d'.toInt → Retargeted leads (.wideBranch op d) (.wideBranch op d')
  | tableSwitch {padding : Bytes} {default default' low high : Int32} {ds ds' : List Int32} :
    leads default.toInt default'.toInt →
    List.Forall₂ (fun d d' : Int32 => leads d.toInt d'.toInt) ds ds' →
    Retargeted leads (.tableSwitch padding default low high ds)
      (.tableSwitch padding default' low high ds')
  | lookupSwitch {padding : Bytes} {default default' : Int32} {cases cases' : List (Int32 × Int32)} :
    leads default.toInt default'.toInt →
    List.Forall₂ (fun c c' : Int32 × Int32 => c.1 = c'.1 ∧ leads c.2.toInt c'.2.toInt)
      cases cases' →
    Retargeted leads (.lookupSwitch padding default cases) (.lookupSwitch padding default' cases')

/-- An instruction is retargeted also where more distances lead to their targets. -/
theorem Instruction.Retargeted.mono {leads leads' : Int → Int → Prop} {i m : Instruction}
    (h : i.Retargeted leads m) (hleads : ∀ d d', leads d d' → leads' d d') :
    i.Retargeted leads' m := by
  cases h with
  | plain => exact .plain
  | branch hd => exact .branch (hleads _ _ hd)
  | wideBranch hd => exact .wideBranch (hleads _ _ hd)
  | tableSwitch hdefault hds =>
    exact .tableSwitch (hleads _ _ hdefault) (hds.imp fun _ _ => hleads _ _)
  | lookupSwitch hdefault hcases =>
    exact .lookupSwitch (hleads _ _ hdefault) (hcases.imp fun _ _ hc => ⟨hc.1, hleads _ _ hc.2⟩)

/-- An instruction whose distances stay what they are stays what it is. -/
theorem Instruction.Retargeted.eq_of_leads {leads : Int → Int → Prop} {i m : Instruction}
    (h : i.Retargeted leads m) (hleads : ∀ d d', leads d d' → d = d') : m = i := by
  have hwide {d d' : Int32} (hd : leads d.toInt d'.toInt) : d = d' :=
    Int32.toInt_inj.1 (hleads _ _ hd)
  cases h with
  | plain => rfl
  | branch hd => rw [Int16.toInt_inj.1 (hleads _ _ hd)]
  | wideBranch hd => rw [hwide hd]
  | tableSwitch hdefault hds =>
    have hsame := hds.imp fun _ _ => hwide
    rw [List.forall₂_eq_eq_eq] at hsame
    rw [hwide hdefault, hsame]
  | lookupSwitch hdefault hcases =>
    have hsame := hcases.imp fun _ _ hc => Prod.ext hc.1 (hwide hc.2)
    rw [List.forall₂_eq_eq_eq] at hsame
    rw [hwide hdefault, hsame]

namespace Layout

variable {layout : Layout} {site : Site} {hooks : HookRefs} {pairs : List Replacement}

/-- **Mending** changes the distances of an instruction and nothing else. -/
theorem retargeted_of_mend (hfits : layout.Fits) (hsite : site ∈ layout.sites) {m : Instruction}
    (h : layout.mend site = .ok m) : site.instruction.Retargeted (layout.Relocates site) m := by
  have hdistance {d d' : Int32} (hd : layout.distance site d = .ok d') :=
    relocates_of_distance hfits hsite hd
  cases hi : site.instruction with
  | plain op operands =>
    simp only [mend, hi] at h
    cases h
    exact .plain
  | branch op old =>
    -- mending a short branch has its own test of the range, so the new distance is read off there
    have hmends := mends_of_mend hfits hsite h
    simp only [mend, hi, except_bind_eq_ok] at h
    obtain ⟨new, -, h⟩ := h
    split at h
    · cases h
    · cases h
      rw [hi] at hmends
      exact .branch (List.forall₂_cons.1 hmends.distances).1
  | wideBranch op old =>
    simp only [mend, hi, except_bind_eq_ok, except_pure_eq_ok] at h
    obtain ⟨new, hnew, rfl⟩ := h
    exact .wideBranch (hdistance hnew)
  | tableSwitch padding default low high distances =>
    simp only [mend, hi, except_bind_eq_ok, except_pure_eq_ok, mapM_eq_ok_iff] at h
    obtain ⟨default', hdefault, distances', hdistances, rfl⟩ := h
    exact .tableSwitch (hdistance hdefault) (hdistances.imp fun _ _ hd => hdistance hd)
  | lookupSwitch padding default cases =>
    simp only [mend, hi, except_bind_eq_ok, except_pure_eq_ok, mapM_eq_ok_iff] at h
    obtain ⟨default', hdefault, cases', hcases, rfl⟩ := h
    refine .lookupSwitch (hdistance hdefault) (hcases.imp ?_)
    rintro c c' ⟨d', hd, rfl⟩
    exact ⟨rfl, hdistance hd⟩

/-- The site of a pair is mended to its new instruction. -/
theorem mend_place (h : Mended hooks pairs)
    (hmends : List.Forall₂ (fun site m => (Layout.of (pairs.map Prod.fst) hooks).mend site = .ok m)
      (Layout.of (pairs.map Prod.fst) hooks).sites (pairs.map Prod.snd))
    {before after : List Replacement} {pair : Replacement} (hsplit : pairs = before ++ pair :: after) :
    (Layout.of (pairs.map Prod.fst) hooks).mend
      (place (exitLength hooks) (oldEnd before) (hooks.newEnd before) pair.1) = .ok pair.2 := by
  have hend := h.endFrom_eq hsplit
  rw [sites_of, hsplit, forall₂_sitesFrom_append] at hmends
  obtain ⟨-, hrest⟩ := hmends
  simp only [List.map_cons, sitesFrom, List.forall₂_cons, hend, Nat.zero_add] at hrest
  rw [hsplit]
  exact hrest.1

/-- A pair of instructions has a site in the layout of the old body. -/
theorem mem_sites_place (h : Mended hooks pairs) {before after : List Replacement}
    {pair : Replacement} (hsplit : pairs = before ++ pair :: after) :
    place (exitLength hooks) (oldEnd before) (hooks.newEnd before) pair.1
      ∈ (Layout.of (pairs.map Prod.fst) hooks).sites := by
  refine mem_sites_iff.2 ⟨before.map Prod.fst, pair.1, after.map Prod.fst, by simp [hsplit], ?_⟩
  rw [h.endFrom_eq hsplit]
  rfl

end Layout

/-- A distance from the old instruction of a pair and one from its new instruction lead to an old
instruction and to where the calls in front of its new form start, or this itself if there are none. -/
def HookRefs.Leads (hooks : HookRefs) (pairs before : List Replacement) (pair : Replacement)
    (d d' : Int) : Prop :=
  ∃ front target back, pairs = front ++ target :: back
    ∧ (oldEnd front : Int) = oldEnd before + d
    ∧ (hooks.newEnd front : Int) = hooks.newPc before pair + d'

/-- The body `new` is `body` with hooks, `pairs` being its instructions and what became of them. -/
structure CodeOf.Retargets (hooks : HookRefs) (pairs : List Replacement) (body : Code)
    (new : CodeOf Bytes) : Prop where
  decode_old : Body.decode body.code = .ok (pairs.map Prod.fst)
  decode_new : ∃ nops < 4, 4 ∣ Body.length (hooks.enter.map Instruction.call) + nops
    ∧ Body.decode new.code
      = .ok (hooks.enter.map Instruction.call ++ List.replicate nops Instruction.nop
          ++ (pairs.map Prod.snd).flatMap fun i =>
            if i.isReturn then hooks.exit.map Instruction.call ++ [i] else [i])
  /-- An instruction is padded for its new offset, and its distances lead to the same targets. -/
  retargeted {before after : List Replacement} {pair : Replacement} :
    pairs = before ++ pair :: after →
      (pair.1.repad (hooks.newPc before pair)).Retargeted (hooks.Leads pairs before pair) pair.2
  maxStack : new.maxStack = body.maxStack
  maxLocals : new.maxLocals = body.maxLocals
  catchTypes : new.handlers.map ExceptionHandler.catchType
    = body.handlers.map ExceptionHandler.catchType
  /-- The length that is written is that of the code. -/
  length : (UInt32.ofNat new.code.length).toNat = new.code.length

namespace HookRefs

variable (hooks : HookRefs)

/-- Each call at entry takes three octets. -/
theorem length_enterCalls :
    Body.length (hooks.enter.map Instruction.call) = 3 * hooks.enter.length := by
  induction hooks.enter with
  | nil => rfl
  | cons method rest ih =>
    rw [List.map_cons, Body.length_cons, ih, List.length_cons]
    show 3 + 3 * rest.length = 3 * (rest.length + 1)
    omega

/-- What a new instruction leads to, told by the layout, is told by the pairs. -/
theorem leads_of_relocates {hooks : HookRefs} {pairs before after : List Replacement}
    {pair : Replacement} (h : Layout.Mended hooks pairs) (hsplit : pairs = before ++ pair :: after)
    {d d' : Int}
    (hd : (Layout.of (pairs.map Prod.fst) hooks).Relocates
      (Layout.place (Layout.exitLength hooks) (oldEnd before) (hooks.newEnd before) pair.1) d d') :
    hooks.Leads pairs before pair d d' := by
  obtain ⟨old, new, hmap, hlt, hold, hnew⟩ := hd
  obtain ⟨front, back, hpairs, rfl, rfl⟩ := h.map?_eq_some_iff.1 hmap
  rw [Layout.newPc_place (h.skeleton (by simp [hsplit]))] at hnew
  cases back with
  | nil =>
    -- the end of the body is no target
    rw [List.append_nil] at hpairs
    rw [Layout.oldLength_of, hpairs] at hlt
    exact absurd hlt (Nat.lt_irrefl _)
  | cons target back => exact ⟨front, target, back, hpairs, hold, hnew⟩

end HookRefs

/-- **Inserting hooks** puts calls into a body and leaves each of its instructions what it was, up to
padding and distances, which lead to the same targets. -/
theorem CodeOf.retargets_insertHooks {body : Code} {classBytes out : Bytes} {hooks : HookRefs}
    (h : body.insertHooks classBytes hooks = .ok out) :
    ∃ (pairs : List Replacement) (new : CodeOf Bytes),
      out = new.encode ∧ Retargets hooks pairs body new := by
  obtain ⟨pairs, new, rfl, hnew⟩ := CodeOf.hooked_of_insertHooks h
  refine ⟨pairs, new, rfl, hnew.rebuilt.decode_old, ?_, ?_, hnew.maxStack, hnew.maxLocals, ?_, ?_⟩
  · refine ⟨(4 - 3 * hooks.enter.length % 4) % 4, Nat.mod_lt _ (by decide), ?_,
      hnew.rebuilt.decode_new⟩
    rw [hooks.length_enterCalls]
    omega
  · intro before after pair hsplit
    have hfits := Layout.fits_of hnew.newLength
    have hretargeted := Layout.retargeted_of_mend hfits (Layout.mem_sites_place hnew.mended hsplit)
      (Layout.mend_place hnew.mended hnew.mends hsplit)
    rw [← Layout.newPc_place (hnew.mended.skeleton (by simp [hsplit]))]
    exact hretargeted.mono fun _ _ hd => HookRefs.leads_of_relocates hnew.mended hsplit hd
  · exact (map_eq_map_of_forall₂ hnew.rebuilt.handlers fun _ _ hh => hh.2.2.2).symm
  · exact UInt32.toNat_ofNat_of_lt' (Nat.lt_of_le_of_lt hnew.length (by decide))

/-- A switch behind a return, with a case that leads back to this return, and padding that is not
zero. -/
def switchBody : Code where
  maxStack := 1
  maxLocals := 1
  code := [0x1A, 0x99, 0, 4, 0xB1, 0x1A, 0xAB, 0xFF, 0, 0, 0, 18, 0, 0, 0, 1, 0, 0, 0, 7,
    0xFF, 0xFF, 0xFF, 0xFE, 0xB1]
  handlers := [⟨0, 24, 24, 9⟩]
  attributes := []

/-- The switch with hooks: a call in front of the return moves it by three octets, so it is padded
with two octets instead of one, and the case leads to that call. -/
theorem switchBody_retargets :
    ∃ out, switchBody.insertHooks [] ⟨[5], [6]⟩ = .ok out
      ∧ ∃ (pairs : List Replacement) (new : CodeOf Bytes),
          out = new.encode ∧ CodeOf.Retargets ⟨[5], [6]⟩ pairs switchBody new := by
  have hout : switchBody.insertHooks [] ⟨[5], [6]⟩ = .ok
      ([0, 1, 0, 1, 0, 0, 0, 36] ++ [184, 0, 5, 0, 26, 153, 0, 7, 184, 0, 6, 177, 26]
        ++ [171, 0, 0, 0, 0, 0, 19, 0, 0, 0, 1, 0, 0, 0, 7, 255, 255, 255, 251, 184, 0, 6, 177]
        ++ [0, 1, 0, 4, 0, 32, 0, 32, 0, 9] ++ [0, 0]) := by
    decide +kernel
  exact ⟨_, hout, CodeOf.retargets_insertHooks hout⟩

end AdviceWeaver

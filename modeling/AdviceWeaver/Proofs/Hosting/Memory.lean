import AdviceWeaver.Hosting.Memory
import AdviceWeaver.Proofs.Hosting.Contract
import AdviceWeaver.Proofs.Hosting.Loaders
import AdviceWeaver.Proofs.Hosting.Transformers

/-!
# The host in memory keeps its promises

The host in memory is a host as `HostContract` wants it, however it is told to refuse calls, as long as
it does not refuse to transform single classes. It is looked at through its transformers and its
classes, by their place in the order of definition (`MemoryHost.model`).

## Main results

* `MemoryHost.hostContract` — the host keeps the contract.
* `MemoryHost.defines_of_define` — what defining a class does, as the contract speaks of it.
-/

namespace AdviceWeaver.MemoryHost

open Act

variable {loaders : Array MemoryLoader} {faults : MemoryFaults} {s s' : Session MemoryHost}

/-- A class as the contract speaks of it. -/
def hosted (h : MemoryHost) (c : MemoryClass) : HostedClass :=
  ⟨binaryName c.name, some c.name, c.loader, h.describeLoader c.loader, c.modifiable, c.initial,
    c.current⟩

/-- The host as long as nobody changes its loaders or the calls that it refuses. -/
def model (loaders : Array MemoryLoader) (faults : MemoryFaults) : HostModel MemoryHost where
  view h := ⟨h.transformers, fun handle => (h.classes[handle]?).map h.hosted⟩
  valid h := h.loaders = loaders ∧ h.faults = faults

/-! ### Passing a class through the transformers -/

/-- The form of a class that transformers leave, and the session, in which the host is as it was. -/
theorem transformAnew_ok {c : MemoryClass} {redefining : Bool} {current : Bytes}
    (hrun : (transformAnew c redefining).run s = (.ok current, s')) :
    s'.world = s.world ∧ ∃ out?, (Transformer.transformAll loaderOps
        ((s.world.hosted c).request redefining) s.world.transformers).run s = (.ok out?, s')
      ∧ s.world.hosted { c with current } = (s.world.hosted c).passed (.ok out?) := by
  obtain ⟨w, s₁, hworld, hrun⟩ := exists_of_run_bind hrun
  cases hworld
  obtain ⟨out?, s₂, hall, hrun⟩ := exists_of_run_bind hrun
  cases hrun
  have hops : loaderOps.Reliable fun w => w = s.world :=
    reliable_loaderOps fun w hw => congrArg MemoryHost.loaders hw
  have hload (e : LoadEvent) : Ensures (fun s' => s'.world = s.world) (loaderOps.load e)
      fun _ s' => s'.world = s.world :=
    (ensures_pure none).mono fun _ _ h => h.2
  exact ⟨Transformer.ensures_transformAll hops hload _ _ s rfl out? _ hall, out?, hall, rfl⟩

/-- A class passes, if what comes out is put in its place. -/
theorem passes_of_transformAnew (hvalid : (model loaders faults).valid s.world) {c : MemoryClass}
    {handle : Nat} {redefining : Bool} {current : Bytes} {f : MemoryHost → MemoryHost}
    (hrun : (transformAnew c redefining).run s = (.ok current, s'))
    (hloaders : (f s.world).loaders = s.world.loaders) (hfaults : (f s.world).faults = s.world.faults)
    (htransformers : (f s.world).transformers = s.world.transformers)
    (hclasses : ∀ other, (f s.world).classes[other]?
      = if other = handle then some { c with current } else s.world.classes[other]?) :
    (model loaders faults).Passes loaderOps handle (s.world.hosted c) redefining s
      { s' with world := f s'.world } := by
  obtain ⟨hworld, out?, hall, hcurrent⟩ := transformAnew_ok hrun
  refine ⟨.ok out?, s', hall, ?_, ?_, rfl⟩
  · rw [hworld]
    exact ⟨hloaders.trans hvalid.1, hfaults.trans hvalid.2⟩
  · rw [hworld, ← hcurrent]
    have hhosted (k : MemoryClass) : (f s.world).hosted k = s.world.hosted k := by
      simp only [hosted, describeLoader, hloaders]
    refine congrArg₂ HostView.mk htransformers (funext fun other => ?_)
    show _ = Function.update ((model loaders faults).view s.world).classes handle
      (some (s.world.hosted { c with current })) other
    rw [hclasses, show (f s.world).hosted = s.world.hosted from funext hhosted]
    by_cases heq : other = handle
    · rw [if_pos heq, heq, Function.update_self]
      rfl
    · rw [if_neg heq, Function.update_of_ne heq]
      rfl

/-! ### The calls -/

/-- **Classes are transformed again** one after the other, since none of them is refused. -/
theorem reruns_of_retransformEach (hfaults : faults.failClasses = []) {classes : List LoadedClass}
    {answer : Except HostError Unit} (hvalid : (model loaders faults).valid s.world)
    (hhandles : ∀ c ∈ classes, c.handle < s.world.classes.size)
    (hrun : (retransformEach classes).run s = (.ok answer, s')) :
    (model loaders faults).Reruns loaderOps (classes.map LoadedClass.handle) s s'
      ∧ answer = .ok () := by
  induction classes generalizing s with
  | nil =>
    cases hrun
    exact ⟨.nil ⟨hvalid, rfl, rfl⟩, rfl⟩
  | cons l rest ih =>
    have hlt := hhandles l List.mem_cons_self
    obtain ⟨w, s₁, hworld, hrun⟩ := exists_of_run_bind hrun
    cases hworld
    have hclass : s.world.classes[l.handle]? = some s.world.classes[l.handle] :=
      Array.getElem?_eq_getElem hlt
    generalize s.world.classes[l.handle] = c at hclass
    simp only [hclass] at hrun
    have hnone : ¬ s.world.faults.failClasses.contains (binaryName c.name) = true := by
      rw [hvalid.2, hfaults]
      exact Bool.false_ne_true
    rw [if_neg hnone] at hrun
    obtain ⟨current, s₁, hanew, hrun⟩ := exists_of_run_bind hrun
    obtain ⟨⟨⟩, s₂, hmodify, hrun⟩ := exists_of_run_bind hrun
    cases hmodify
    have hworld := (transformAnew_ok hanew).1
    -- The class stays at its place with its new bytes, and all the others as they are.
    have hpasses := passes_of_transformAnew (f := fun h => { h with
      classes := h.classes.modify l.handle fun c => { c with current }
      redefinitions := h.redefinitions + 1 }) hvalid hanew rfl rfl rfl fun other => by
        rw [Array.getElem?_modify]
        by_cases heq : other = l.handle
        · subst heq
          rw [if_pos rfl, if_pos rfl, hclass]
          rfl
        · rw [if_neg (Ne.symm heq), if_neg heq]
    have ⟨_, _, _, hbecomes⟩ := hpasses
    obtain ⟨hreruns, rfl⟩ := ih hbecomes.valid (fun c hc => by
      dsimp only
      rw [Array.size_modify, hworld]
      exact hhandles c (List.mem_cons_of_mem l hc)) hrun
    have hseen : ((model loaders faults).view s.world).classes l.handle
        = some (s.world.hosted c) := by
      dsimp only [model]
      rw [hclass, Option.map_some]
    exact ⟨.cons ⟨hvalid, rfl, rfl⟩ hseen hpasses hreruns, rfl⟩

/-- The classes that the host lists. -/
def listing (h : MemoryHost) : List LoadedClass :=
  h.classes.toList.zipIdx.map fun (c, i) =>
    ⟨binaryName c.name, h.describeLoader c.loader, c.modifiable, i⟩

/-- A class is listed exactly if the view lists it. -/
theorem mem_listing_iff (h : MemoryHost) (c : LoadedClass) :
    c ∈ h.listing ↔ ((model loaders faults).view h).Lists c := by
  simp only [listing, List.mem_map, Prod.exists, List.mk_mem_zipIdx_iff_getElem?, Array.getElem?_toList,
    HostView.Lists, HostView.listing, model, Option.map_map, Option.map_eq_some_iff]
  constructor
  · rintro ⟨k, i, hk, rfl⟩
    exact ⟨k, hk, rfl⟩
  · rintro ⟨k, hk, heq⟩
    exact ⟨k, c.handle, hk, heq⟩

/-- **The host in memory** keeps the contract, if it does not refuse single classes. -/
theorem hostContract (hfaults : faults.failClasses = []) (h : HostId) :
    HostContract loaderOps hostOps h (model loaders faults) where
  loaders v := reliable_loaderOps fun w hw => hw.1.1
  addTransformer hvalid hrun := by
    cases hrun
    exact ⟨hvalid, rfl, rfl⟩
  removeTransformer hvalid hrun := by
    cases hrun
    exact ⟨hvalid, rfl, rfl⟩
  supportsRetransform hvalid hrun := by
    cases hrun
    exact ⟨hvalid, rfl, rfl⟩
  loadedClasses {s s' answer} hvalid hrun := by
    obtain ⟨w, s₁, hworld, hrun⟩ := exists_of_run_bind hrun
    cases hworld
    cases hloaded : s.world.faults.loadedError with
    | some message =>
      simp only [hloaded] at hrun
      cases hrun
      exact ⟨⟨hvalid, rfl, rfl⟩, nofun⟩
    | none =>
      simp only [hloaded] at hrun
      cases hrun
      refine ⟨⟨hvalid, rfl, rfl⟩, fun loaded heq c => ?_⟩
      cases heq
      exact mem_listing_iff s.world c
  retransform {s s' classes answer} hvalid hlists hrun := by
    obtain ⟨⟨⟩, s₁, hcalls, hrun⟩ := exists_of_run_bind hrun
    cases hcalls
    obtain ⟨w, s₁, hworld, hrun⟩ := exists_of_run_bind hrun
    cases hworld
    have hrests : (model loaders faults).Rests s { s with
        world := { s.world with calls := classes.length :: s.world.calls } } := ⟨hvalid, rfl, rfl⟩
    split at hrun
    · next hrefused =>
      cases hrun
      refine ⟨[], .nil hrests, nofun, fun c hc _ => ?_⟩
      simp [hc] at hrefused
    · have hhandles (c : LoadedClass) (hc : c ∈ classes) : c.handle < s.world.classes.size := by
        obtain ⟨k, hk, -⟩ := Option.map_eq_some_iff.1 (hlists c hc)
        obtain ⟨k', hk', -⟩ := Option.map_eq_some_iff.1 hk
        exact (Array.getElem?_eq_some_iff.1 hk').1
      obtain ⟨hreruns, rfl⟩ := reruns_of_retransformEach hfaults hrests.valid hhandles hrun
      exact ⟨_, .of_rests hrests hreruns, fun _ c hc => List.mem_map_of_mem hc, fun _ _ _ => rfl⟩

/-! ### Willingness -/

/-- Passing a class does not panic, if the transformers do not. -/
theorem safe_transformAnew {transformers : List Transformer}
    (hpanics : Transformer.NeverPanic loaderOps (model loaders faults).valid transformers)
    (c : MemoryClass) (redefining : Bool) :
    Safe (fun s => (model loaders faults).valid s.world ∧ s.world.transformers = transformers)
      (transformAnew c redefining) := by
  rintro s ⟨hvalid, rfl⟩
  obtain ⟨out?, s', hall, -⟩ := hpanics ((s.world.hosted c).request redefining) s hvalid
  have hrun : (transformAnew c redefining).run s = (.ok (out?.getD c.initial), s') :=
    (run_bind_ok run_world).trans (run_bind_ok hall)
  have hworld : s'.world = s.world := (transformAnew_ok hrun).1
  rw [← hworld] at hvalid
  exact ⟨_, s', hrun, hvalid, congrArg MemoryHost.transformers hworld⟩

/-- Transforming classes again does not panic if no transformer does, by induction on the classes. -/
theorem safe_retransformEach {transformers : List Transformer}
    (hpanics : Transformer.NeverPanic loaderOps (model loaders faults).valid transformers)
    (classes : List LoadedClass) :
    Safe (fun s => (model loaders faults).valid s.world ∧ s.world.transformers = transformers)
      (retransformEach classes) := by
  induction classes with
  | nil => exact (settles_pure _).safe
  | cons l rest ih =>
    refine safe_world.bind fun w => ?_
    cases w.classes[l.handle]? with
    | none => exact ih
    | some c =>
      dsimp only
      split
      · exact (settles_pure _).safe
      · refine (safe_transformAnew hpanics c true).bind fun current => ?_
        refine Safe.bind (fun s hs => ⟨(), _, rfl, hs⟩) fun _ => ?_
        exact ih

/-- **The host in memory** is willing, if it is not told to refuse everything or not to list its
classes. -/
theorem willing (hsupports : faults.noRetransform = false) (hlists : faults.loadedError = none)
    (h : HostId) : hostOps.Willing loaderOps h (model loaders faults) where
  addTransformer t s hs := ⟨(), _, rfl, trivial⟩
  supportsRetransform s hs := by
    refine ⟨_, s, rfl, ?_⟩
    rw [hs.2, hsupports]
    rfl
  loadedClasses s hs := by
    have hnone : s.world.faults.loadedError = none := by rw [hs.2, hlists]
    refine ⟨.ok s.world.listing, s, ?_, _, rfl⟩
    refine (run_bind_ok run_world).trans ?_
    dsimp only
    rw [hnone]
    rfl
  retransform classes := by
    rintro s ⟨hvalid, -, hpanics⟩
    have hsafe : Safe (fun t => (model loaders faults).valid t.world
        ∧ t.world.transformers = s.world.transformers) (hostOps.retransform h classes) := by
      refine Safe.bind (fun s hs => ⟨(), _, rfl, hs⟩) fun _ => ?_
      refine safe_world.bind fun w => ?_
      split
      · exact (settles_pure _).safe
      · exact safe_retransformEach hpanics classes
    obtain ⟨answer, s', hrun, -⟩ := hsafe s ⟨hvalid, rfl⟩
    exact ⟨answer, s', hrun, trivial⟩

/-! ### Definitions -/

/-- The sample of a class is called `A`. -/
theorem name_of_read_idle (t : TypeDescription) (hread : TypeDescription.read ClassFile.idle = .ok t) :
    binaryName "A" = t.name := by
  have hname : (TypeDescription.read ClassFile.idle).toOption.map TypeDescription.name
      = some (binaryName "A") := by
    decide +kernel
  rw [hread] at hname
  exact (Option.some.inj hname).symm

/-- **A class that is defined** takes the next place and passes. -/
theorem passes_of_define {name : String} {loader : Option LoaderId} {bytes : Bytes} {c : MemoryClass}
    (hvalid : (model loaders faults).valid s.world)
    (hrun : (define name loader bytes true).run s = (.ok c, s')) :
    ((model loaders faults).view s.world).classes s.world.classes.size = none
      ∧ (model loaders faults).Passes loaderOps s.world.classes.size
        (s.world.hosted ⟨name, loader, bytes, bytes, true⟩) false s s' := by
  obtain ⟨current, s₁, hanew, hrun⟩ := exists_of_run_bind hrun
  obtain ⟨c', s₂, hpure, hrun⟩ := exists_of_run_bind hrun
  cases hpure
  obtain ⟨⟨⟩, s₃, hmodify, hrun⟩ := exists_of_run_bind hrun
  cases hmodify
  cases hrun
  have hnew : ((model loaders faults).view s.world).classes s.world.classes.size = none := by
    dsimp only [model]
    rw [Array.getElem?_size, Option.map_none]
  have hclasses (other : Nat) :
      (s.world.classes.push ⟨name, loader, bytes, current, true⟩)[other]?
        = if other = s.world.classes.size then some ⟨name, loader, bytes, current, true⟩
          else s.world.classes[other]? := by
    by_cases heq : other = s.world.classes.size
    · rw [if_pos heq, heq, Array.getElem?_push_size]
    · rw [if_neg heq, Array.getElem?_push, if_neg heq]
  exact ⟨hnew, passes_of_transformAnew
    (f := fun h => { h with classes := h.classes.push ⟨name, loader, bytes, current, true⟩ })
    hvalid hanew rfl rfl rfl hclasses⟩

/-- A class that is defined is the next one, and passed through the transformers. -/
theorem definesAll_of_define {name : String} {loader : Option LoaderId} {bytes : Bytes}
    {c : MemoryClass} (hvalid : (model loaders faults).valid s.world)
    (hrun : (define name loader bytes true).run s = (.ok c, s')) :
    (model loaders faults).DefinesAll loaderOps
      [s.world.hosted ⟨name, loader, bytes, bytes, true⟩] [s.world.classes.size] s s' := by
  obtain ⟨hnew, hpasses⟩ := passes_of_define hvalid hrun
  have ⟨_, _, _, hbecomes⟩ := hpasses
  exact .cons ⟨hvalid, rfl, rfl⟩ hnew hpasses (.nil ⟨hbecomes.valid, rfl, rfl⟩)

/-- **Defining a class** that is modifiable and has its own name. -/
theorem defines_of_define {name : String} {loader : Option LoaderId} {bytes : Bytes} {c : MemoryClass}
    (hvalid : (model loaders faults).valid s.world)
    (hnamed : ∀ t, TypeDescription.read bytes = .ok t → binaryName name = t.name)
    (hrun : (define name loader bytes true).run s = (.ok c, s')) :
    (model loaders faults).Defines loaderOps s s' := by
  obtain ⟨hnew, hpasses⟩ := passes_of_define hvalid hrun
  have hmodifiable : (s.world.hosted ⟨name, loader, bytes, bytes, true⟩).modifiable = true := rfl
  have hnamed' : (s.world.hosted ⟨name, loader, bytes, bytes, true⟩).IsNamed := hnamed
  exact .intro ⟨hvalid, rfl, rfl⟩ hnew hmodifiable hnamed' hpasses

/-- What the host says of a class is true, if the name is. -/
theorem isProper_hosted {h : MemoryHost} {c : MemoryClass} (hvalid : (model loaders faults).valid h)
    (hmodifiable : c.modifiable = true)
    (hnamed : ∀ t, TypeDescription.read c.initial = .ok t → binaryName c.name = t.name) :
    (h.hosted c).IsProper loaderOps (model loaders faults) where
  modifiable := hmodifiable
  named := hnamed
  className name hname := by
    cases hname
    rfl
  described s hs := by
    obtain ⟨name, loader, initial, current, modifiable⟩ := c
    cases loader with
    | none => rfl
    | some l =>
      have hloaders : s.world.loaders = h.loaders := hs.1.trans hvalid.1.symm
      show Except.ok (((s.world.loaders[l]?).getD default).description) = _
      rw [hloaders]
      rfl

end AdviceWeaver.MemoryHost

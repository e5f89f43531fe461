import Mathlib.Logic.Relation
import AdviceWeaver.Proofs.Agent.Calls
import AdviceWeaver.Proofs.Hosting.Memory
import AdviceWeaver.Proofs.Pipeline.Building
import AdviceWeaver.Proofs.Pipeline.Installing

/-!
# Whole runs of an agent

Classes are defined and transformed again, and an agent is initialized and reset, in any order and
any number of times (`Agent.Step`). All the while, either no pipeline is installed and no class is
changed, or the record of the installed pipeline names every class that is (`Agent.Sound`).

## Main results

* `Agent.Sound.step` — each step keeps an agent sound.
* `Agent.run_restores` — a reset always leaves the initial form of all classes.
-/

namespace AdviceWeaver

open Act

variable {ε α β : Type} {ops : LoaderOps ε} {hosts : HostOps ε} {h : HostId} {M : HostModel ε}
  {s s' : Session ε} {a a' : Agent}

namespace Agent

open AgentAct

/-! ### What the calls do -/

/-- A call that initializes an agent leaves one that is initialized as it is, or installs a new
pipeline. -/
theorem initInstrumentation_ok {tracer : Tracer} {modules : Act ε (List Module)}
    (hrun : (initInstrumentation ops hosts tracer h modules).runFrom a s
      = ((.ok (.ok ()), a'), s')) :
    (a.isInitialized = true ∧ a' = a ∧ s'.world = s.world ∧ s'.records = s.records)
      ∨ (a.installed = none ∧ ∃ p,
        (buildAndInstall ops hosts tracer h modules).run s = (.ok (.ok p), s')
          ∧ a' = { a with installed := some ⟨h, p⟩ }) := by
  by_cases hinitialized : a.isInitialized = true
  · rw [runFrom_initInstrumentation_of_some hinitialized] at hrun
    cases hrun
    exact .inl ⟨hinitialized, rfl, rfl, rfl⟩
  · rw [Agent.isInitialized, Option.not_isSome_iff_eq_none] at hinitialized
    rw [runFrom_initInstrumentation_of_none hinitialized] at hrun
    rcases hbuild : (buildAndInstall ops hosts tracer h modules).run s with ⟨p | e | p, s₁⟩
    · rw [hbuild] at hrun
      cases hrun
    · rw [hbuild] at hrun
      cases hrun
    · rw [hbuild] at hrun
      cases hrun
      exact .inr ⟨hinitialized, p, rfl, rfl⟩

/-- A call that resets an agent takes its pipeline out. -/
theorem reset_ok (hrun : (reset hosts).runFrom a s = ((.ok (.ok ()), a'), s')) :
    ∃ i count s₁, a.installed = some i
      ∧ (i.pipeline.resetOn hosts i.host).run s = (.ok (.ok count), s₁)
      ∧ s'.world = s₁.world ∧ a' = { a with installed := none } := by
  cases hinstalled : a.installed with
  | none =>
    rw [runFrom_reset_of_none hinstalled] at hrun
    cases hrun
  | some i =>
    rw [runFrom_reset_of_some hinstalled] at hrun
    rcases hreset : (i.pipeline.resetOn hosts i.host).run s with ⟨p | e | count, s₁⟩
    · rw [hreset] at hrun
      cases hrun
    · rw [hreset] at hrun
      cases hrun
    · rw [hreset] at hrun
      cases hrun
      exact ⟨i, count, s₁, rfl, hreset, rfl, rfl⟩

/-- **A new pipeline** is watched from the start. -/
theorem ensures_buildAndInstall (hhost : HostContract ops hosts h M) (tracer : Tracer)
    {modules : Act ε (List Module)} (hmodules : M.Spares modules) :
    Ensures (M.Serves [] fun _ _ => False) (buildAndInstall ops hosts tracer h modules)
      fun answer s => ∀ p, answer = .ok p → p.ignore.Calm ops ∧ M.Watched p s := by
  rintro s hs answer s' hrun p rfl
  obtain ⟨found, s₁, hfound, -⟩ := exists_of_run_bind hrun
  obtain ⟨journal, hbuild⟩ : ∃ journal, (buildAndInstall ops hosts tracer h modules).run s = _ :=
    exists_run_buildAndInstall hfound
  have hnone : M.Serves [] (fun _ _ => False)
      { s₁ with journal, records := s₁.records.push [] } :=
    (hs.of_rests (hmodules s found s₁ hs.valid hfound)).of_world_eq rfl
  have hnew : s₁.records.size < (s₁.records.push []).size := by
    rw [Array.size_push]
    exact Nat.lt_succ_self _
  have hcalm : (Pipeline.ofModules tracer found s₁.records.size).ignore.Calm ops :=
    Pipeline.calm_ofModules tracer found _
  rw [hbuild] at hrun
  rcases hinstall : ((Pipeline.ofModules tracer found s₁.records.size).installOn ops hosts h).run
    { s₁ with journal, records := s₁.records.push [] } with ⟨q | e | ⟨⟩, s₂⟩
  · rw [hinstall] at hrun
    cases hrun
  · rw [hinstall] at hrun
    cases hrun
  · rw [hinstall] at hrun
    cases hrun
    have hwatched := Pipeline.ensures_installOn hhost hcalm
      { s₁ with journal, records := s₁.records.push [] } ⟨hnew, hnone⟩ (.ok ()) s' hinstall rfl
    exact ⟨hcalm, hwatched⟩

/-! ### Steps -/

/-- **Invariant:** without a pipeline, the host has no transformers and no class is changed; a pipeline
that is installed is the only transformer, and its record names the classes that are changed. -/
structure Sound (ops : LoaderOps ε) (h : HostId) (M : HostModel ε) (a : Agent)
    (s : Session ε) : Prop where
  inactive : a.installed = none → M.Serves [] (fun _ _ => False) s
  active {i : Installed} : a.installed = some i →
    i.host = h ∧ i.pipeline.ignore.Calm ops ∧ M.Watched i.pipeline s

/-- What may happen next to an agent and the host it works on: the host defines a class or transforms
some again, or a call of the agent succeeds. -/
inductive Step (ops : LoaderOps ε) (hosts : HostOps ε) (h : HostId) (M : HostModel ε) :
    Agent × Session ε → Agent × Session ε → Prop
  | define {a : Agent} {s s' : Session ε} (hdefines : M.Defines ops s s') :
      Step ops hosts h M (a, s) (a, s')
  | retransform {a : Agent} {s s' : Session ε} {classes : List LoadedClass}
      {answer : Except HostError Unit} (hlists : ∀ c ∈ classes, (M.view s.world).Lists c)
      (hrun : (hosts.retransform h classes).run s = (.ok answer, s')) :
      Step ops hosts h M (a, s) (a, s')
  | initializeWith {a a' : Agent} {s s' : Session ε} {tracer : Tracer} {jar : Option String}
      {modules : Act ε (List Module)} (hmodules : M.Spares modules)
      (hrun : (Agent.initializeWith ops hosts tracer h jar modules).runFrom a s
        = ((.ok (.ok ()), a'), s')) :
      Step ops hosts h M (a, s) (a', s')
  | initInstrumentation {a a' : Agent} {s s' : Session ε} {tracer : Tracer}
      {modules : Act ε (List Module)} (hmodules : M.Spares modules)
      (hrun : (Agent.initInstrumentation ops hosts tracer h modules).runFrom a s
        = ((.ok (.ok ()), a'), s')) :
      Step ops hosts h M (a, s) (a', s')
  | reset {a a' : Agent} {s s' : Session ε}
      (hrun : (Agent.reset hosts).runFrom a s = ((.ok (.ok ()), a'), s')) :
      Step ops hosts h M (a, s) (a', s')

namespace Sound

/-- Where the agent's archive is does not matter. -/
theorem of_installed_eq (hsound : Sound ops h M a s) (ha : a'.installed = a.installed) :
    Sound ops h M a' s :=
  ⟨fun hnone => hsound.inactive (ha ▸ hnone), fun hsome => hsound.active (ha ▸ hsome)⟩

variable (hhost : HostContract ops hosts h M)
include hhost

/-- A class that is defined leaves the agent sound: it is recorded if it was woven. -/
theorem define (hsound : Sound ops h M a s) (hdefines : M.Defines ops s s') :
    Sound ops h M a s' := by
  obtain ⟨hrests, hnew, hmodifiable, hnamed, hpasses⟩ := hdefines
  refine ⟨fun hnone => ?_, fun {i} hsome => ?_⟩
  · have hs₁ := (hsound.inactive hnone).of_rests hrests
    have hbecomes := hpasses.of_nil hs₁.transformers
    exact hs₁.of_set hbecomes.valid hbecomes.view hmodifiable hnamed (fun hchanged => hchanged rfl)
      fun _ _ _ h => h
  · obtain ⟨hi, hcalm, hs⟩ := hsound.active hsome
    obtain ⟨hs', -⟩ :=
      (hs.of_rests hrests).of_passes hhost hcalm.neverPanic hmodifiable hnamed hpasses
    exact ⟨hi, hcalm, hs'⟩

/-- Classes that are transformed again leave the agent sound. -/
theorem retransform (hsound : Sound ops h M a s) {classes : List LoadedClass}
    {answer : Except HostError Unit} (hlists : ∀ c ∈ classes, (M.view s.world).Lists c)
    (hrun : (hosts.retransform h classes).run s = (.ok answer, s')) : Sound ops h M a s' := by
  refine ⟨fun hnone => ?_, fun {i} hsome => ?_⟩
  · have hs := hsound.inactive hnone
    obtain ⟨handles, hreruns, -, -⟩ := hhost.retransform hs.valid hlists hrun
    exact (hs.of_reruns_nil hreruns).1.mono fun _ _ _ hleft => hleft.1
  · obtain ⟨hi, hcalm, hs⟩ := hsound.active hsome
    obtain ⟨handles, hreruns, -, -⟩ := hhost.retransform hs.serves.valid hlists hrun
    exact ⟨hi, hcalm, (hs.of_reruns hhost hcalm.neverPanic hreruns).1⟩

/-- A pipeline that is installed leaves the agent sound: what it wove is on its record. -/
theorem initInstrumentation (hsound : Sound ops h M a s) {tracer : Tracer}
    {modules : Act ε (List Module)} (hmodules : M.Spares modules)
    (hrun : (Agent.initInstrumentation ops hosts tracer h modules).runFrom a s
      = ((.ok (.ok ()), a'), s')) : Sound ops h M a' s' := by
  rcases initInstrumentation_ok hrun with ⟨-, rfl, hworld, hrecords⟩ | ⟨hnone, p, hbuild, rfl⟩
  · refine ⟨fun hnone => (hsound.inactive hnone).of_world_eq hworld, fun {i} hsome => ?_⟩
    obtain ⟨hi, hcalm, hs⟩ := hsound.active hsome
    exact ⟨hi, hcalm, hs.of_world_eq hworld hrecords⟩
  · obtain ⟨hcalm, hs'⟩ := ensures_buildAndInstall hhost tracer hmodules s
      (hsound.inactive hnone) _ s' hbuild p rfl
    refine ⟨nofun, fun {i} hsome => ?_⟩
    cases hsome
    exact ⟨rfl, hcalm, hs'⟩

/-- **A reset** leaves no class changed. -/
theorem reset (hsound : Sound ops h M a s)
    (hrun : (Agent.reset hosts).runFrom a s = ((.ok (.ok ()), a'), s')) :
    a'.installed = none ∧ M.Serves [] (fun _ _ => False) s' := by
  obtain ⟨i, count, s₁, hsome, hreset, hworld, rfl⟩ := reset_ok hrun
  obtain ⟨rfl, -, hs⟩ := hsound.active hsome
  have hs₁ := Pipeline.ensures_resetOn hhost s hs _ s₁ hreset ⟨count, rfl⟩
  exact ⟨rfl, hs₁.of_world_eq hworld⟩

/-- **Each step** keeps an agent sound. -/
theorem step {x y : Agent × Session ε} (hsound : Sound ops h M x.1 x.2)
    (hstep : Step ops hosts h M x y) : Sound ops h M y.1 y.2 := by
  cases hstep with
  | define hdefines => exact hsound.define hhost hdefines
  | retransform hlists hrun => exact hsound.retransform hhost hlists hrun
  | @initializeWith a a' s s' tracer jar modules hmodules hrun =>
    rw [runFrom_initializeWith] at hrun
    have hjar : Sound ops h M { a with jar } s := hsound.of_installed_eq rfl
    exact hjar.initInstrumentation hhost hmodules hrun
  | initInstrumentation hmodules hrun => exact hsound.initInstrumentation hhost hmodules hrun
  | reset hrun =>
    obtain ⟨hnone, hs'⟩ := hsound.reset hhost hrun
    exact ⟨fun _ => hs', fun hsome => absurd (hnone.symm.trans hsome) nofun⟩

/-- Whole runs keep an agent sound. -/
theorem steps {x y : Agent × Session ε} (hsound : Sound ops h M x.1 x.2)
    (hsteps : Relation.ReflTransGen (Step ops hosts h M) x y) : Sound ops h M y.1 y.2 := by
  induction hsteps with
  | refl => exact hsound
  | tail _ hstep ih => exact ih.step hhost hstep

end Sound

/-- **Reset restores every class.** Let a run start without a pipeline, on a host without transformers
whose classes have their initial form. Whenever a pipeline is installed, its record names every class
that is changed; and after every reset that succeeds, all classes have their initial form. -/
theorem run_restores (hhost : HostContract ops hosts h M) (ha : a.installed = none)
    (hs : M.Serves [] (fun _ _ => False) s)
    (hsteps : Relation.ReflTransGen (Step ops hosts h M) (a, s) (a', s')) :
    (∀ i, a'.installed = some i → ∀ handle k, (M.view s'.world).classes handle = some k →
      k.current ≠ k.original → k.name ∈ s'.recordedBy i.pipeline.record)
    ∧ ∀ a'' s'', (reset hosts).runFrom a' s' = ((.ok (.ok ()), a''), s'') →
      ∀ handle k, (M.view s''.world).classes handle = some k → k.current = k.original := by
  have hstart : Sound ops h M a s :=
    ⟨fun _ => hs, fun hsome => absurd (ha.symm.trans hsome) nofun⟩
  have hsound : Sound ops h M a' s' := hstart.steps hhost hsteps
  refine ⟨fun i hi handle k hclass hchanged => ?_, fun a'' s'' hreset handle k hclass => ?_⟩
  · obtain ⟨-, -, hwatched⟩ := hsound.active hi
    exact hwatched.serves.changed hclass hchanged
  · obtain ⟨-, hs''⟩ := hsound.reset hhost hreset
    by_contra hchanged
    exact hs''.changed hclass hchanged

/-- Whether a class is woven by the module and then reset. -/
def sampleRestores : Bool :=
  match (MemoryHost.define "A" none ClassFile.idle true).run (.start (.new #[])) with
  | (.ok _, s₁) => match (initializeWith MemoryHost.loaderOps MemoryHost.hostOps
      ⟨.default, default⟩ 0 none (return [sampleModule])).runFrom .new s₁ with
    | ((.ok (.ok ()), a'), s') => match a'.installed, s'.world.classes[0]?,
        (reset MemoryHost.hostOps).runFrom a' s' with
      | some _, some k, ((.ok (.ok ()), _), _) => k.isChanged
      | _, _, _ => false
    | _ => false
  | _ => false

/-- A class is defined and then woven by the module; the record has it, and the reset restores it. -/
theorem run_restores_sample :
    ∃ a' s' i k, Relation.ReflTransGen (Step MemoryHost.loaderOps MemoryHost.hostOps 0
        (MemoryHost.model #[] .none)) (.new, .start (.new #[])) (a', s')
      ∧ a'.installed = some i ∧ s'.world.classes[0]? = some k ∧ k.isChanged = true
      ∧ binaryName k.name ∈ s'.recordedBy i.pipeline.record
      ∧ ∃ a'' s'', (reset MemoryHost.hostOps).runFrom a' s' = ((.ok (.ok ()), a''), s'')
        ∧ ∀ k ∈ s''.world.classes[0]?, k.isChanged = false := by
  have hcheck : sampleRestores = true := by
    decide +kernel
  unfold sampleRestores at hcheck
  split at hcheck
  case h_2 => cases hcheck
  next c s₁ hdefine =>
  split at hcheck
  case h_2 => cases hcheck
  next a' s' hinitialize =>
  split at hcheck
  case h_2 => cases hcheck
  next i k a'' s'' hinstalled hclass hreset =>
  have hstart : (MemoryHost.model #[] .none).Serves [] (fun _ _ => False) (.start (.new #[])) :=
    ⟨⟨rfl, rfl⟩, rfl, nofun, nofun, nofun⟩
  have hsteps : Relation.ReflTransGen (Step MemoryHost.loaderOps MemoryHost.hostOps 0
      (MemoryHost.model #[] .none)) (.new, .start (.new #[])) (a', s') := by
    refine .tail (.single (.define ?_)) (.initializeWith ?_ hinitialize)
    · exact MemoryHost.defines_of_define ⟨rfl, rfl⟩ MemoryHost.name_of_read_idle hdefine
    · intro s found s' hvalid hrun
      cases hrun
      exact ⟨hvalid, rfl, rfl⟩
  have hseen {s : Session MemoryHost} {k : MemoryClass} (hclass : s.world.classes[0]? = some k) :
      ((MemoryHost.model #[] .none).view s.world).classes 0 = some (s.world.hosted k) :=
    congrArg (Option.map s.world.hosted) hclass
  obtain ⟨hrecorded, hrestored⟩ :=
    run_restores (MemoryHost.hostContract rfl 0) rfl hstart hsteps
  refine ⟨a', s', i, k, hsteps, hinstalled, hclass, hcheck, ?_, a'', s'', hreset, fun k' hk' => ?_⟩
  · exact hrecorded i hinstalled 0 _ (hseen hclass) (of_decide_eq_true hcheck)
  · exact decide_eq_false fun hchanged => hchanged (hrestored a'' s'' hreset 0 _ (hseen hk'))

end Agent

end AdviceWeaver

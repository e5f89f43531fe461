import Mathlib.Logic.Relation
import AdviceWeaver.Proofs.Agent.Calls
import AdviceWeaver.Proofs.Hosting.Accounting
import AdviceWeaver.Proofs.Hosting.Memory
import AdviceWeaver.Proofs.Pipeline.Building
import AdviceWeaver.Proofs.Pipeline.Installing

/-!
# Ignored classes along whole runs

Classes are defined and transformed again, and an agent is called, in any order and any number of times
(`Agent.Move`). The calls may fail, and the classes need not be modifiable. All the while, the record of
the installed pipeline is accounted for.

## Main results

* `Pipeline.ensures_installOn_accounted` — a record is accounted for once the pipeline is installed.
* `Agent.Fair.move` — each step keeps an agent fair.
* `Agent.ignored_unseen` — ignored classes are invisible to the modules.
-/

namespace AdviceWeaver

open Act

variable {ε : Type} {ops : LoaderOps ε} {hosts : HostOps ε} {h : HostId} {M : HostModel ε}
  {s s' : Session ε} {p : Pipeline} {a a' : Agent}

/-! ### Installing and taking out -/

/-- What single calls keep, whole batches keep. -/
theorem ensures_retransformInBatches_of_calls {good : Session ε → Prop}
    (hjournal : ∀ s journal, good s → good { s with journal }) {classes : List LoadedClass}
    (hcall : ∀ cs ⊆ classes, Ensures good (hosts.retransform h cs) fun _ => good) :
    Ensures good (retransformInBatches hosts h classes) fun _ => good := by
  have hlog (level : Level) (message : String) (fields : List (String × String)) :
      Ensures good (log level message fields) fun _ => good :=
    (settles_log hjournal level message fields).safe.ensures
  have hpure : Ensures good (pure () : Act ε Unit) fun _ => good :=
    (ensures_pure ()).mono fun _ _ hs => hs.2
  have hone (c : LoadedClass) (hc : c ∈ classes) :
      Ensures good (retransformOne hosts h c) fun _ => good := by
    refine (hcall [c] (List.cons_subset.2 ⟨hc, List.nil_subset _⟩)).bind fun answer => ?_
    rcases answer with e | ⟨⟩
    · exact hlog _ _ _
    · exact hpure
  have hforM {α : Type} {f : α → Act ε Unit} {items : List α}
      (hf : ∀ x ∈ items, Ensures good (f x) fun _ => good) :
      Ensures good (items.forM f) fun _ => good := by
    have hleft := ensures_forM (fun rest s => good s ∧ rest ⊆ items) items fun x rest s hs y s' hrun =>
      ⟨hf x (hs.2 List.mem_cons_self) s hs.1 y s' hrun, (List.cons_subset.1 hs.2).2⟩
    exact fun s hs y s' hrun => (hleft s ⟨hs, List.Subset.refl _⟩ y s' hrun).1
  refine hforM fun batch hbatch => ?_
  have hsub : batch ⊆ classes := subset_of_mem_batches (by decide) hbatch
  refine (hcall batch hsub).bind fun answer => ?_
  rcases answer with e | ⟨⟩
  · exact (hlog _ _ _).bind fun _ => hforM fun c hc => hone c (hsub hc)
  · exact hpure

section Introduced

variable (hhost : HostContract ops hosts h M)
  (hintroduced : ∀ w handle k, M.valid w → (M.view w).classes handle = some k →
    k.IsIntroduced ops M)

namespace Pipeline

include hhost in
/-- A pipeline whose record is empty joins a host without transformers. -/
theorem ensures_addTransformer_accounted :
    Ensures (fun s => M.Houses [] s ∧ p.record < s.records.size ∧ s.recordedBy p.record = [])
      (hosts.addTransformer h (.pipeline p)) fun _ => M.Accounts ops p := by
  rintro s ⟨hs, hrecord, hempty⟩ ⟨⟩ s' hrun
  have hbecomes := hhost.addTransformer hs.valid hrun
  have hrecorded : s'.recordedBy p.record = [] := by
    rw [Session.recordedBy, hbecomes.records]
    exact hempty
  refine ⟨hs.of_classes_eq hbecomes.valid ?_ (by rw [hbecomes.view]), hbecomes.records ▸ hrecord,
    fun hname => ?_⟩
  · rw [hbecomes.view, hs.transformers]
    rfl
  · rw [hrecorded] at hname
    cases hname

include hhost in
/-- A host whose only pipeline is unregistered has no transformers. -/
theorem ensures_removeTransformer_accounted :
    Ensures (M.Accounts ops p) (hosts.removeTransformer h (.pipeline p)) fun _ => M.Houses [] := by
  intro s hs found s' hrun
  have hbecomes := hhost.removeTransformer hs.houses.valid hrun
  refine hs.houses.of_classes_eq hbecomes.valid ?_ (by rw [hbecomes.view])
  rw [hbecomes.view, hs.houses.transformers]
  simp

include hhost hintroduced in
/-- Listed classes may be transformed again under a pipeline. -/
theorem ensures_retransform_accounted (hcalm : p.ignore.Calm ops) (classes : List LoadedClass) :
    Ensures (fun s => M.Accounts ops p s ∧ ∀ c ∈ classes, (M.view s.world).Lists c)
      (retransformInBatches hosts h classes) fun _ => M.Accounts ops p := by
  have hbatches : Ensures (fun s => M.Accounts ops p s ∧ ∀ c ∈ classes, (M.view s.world).Lists c)
      (retransformInBatches hosts h classes)
      fun _ s => M.Accounts ops p s ∧ ∀ c ∈ classes, (M.view s.world).Lists c := by
    refine ensures_retransformInBatches_of_calls
      (fun s journal hs => ⟨hs.1.of_world_eq rfl rfl, hs.2⟩) fun cs hsub s hs answer s' hrun => ?_
    obtain ⟨handles, hreruns, -⟩ :=
      hhost.retransform hs.1.houses.valid (fun c hc => hs.2 c (hsub hc)) hrun
    obtain ⟨hs', hlisting⟩ := hs.1.of_reruns hhost hcalm.neverPanic hintroduced hreruns
    refine ⟨hs', fun c hc => ?_⟩
    rw [HostView.Lists, hlisting]
    exact hs.2 c hc
  exact hbatches.mono fun _ _ hs => hs.1

include hhost hintroduced in
/-- **Once a pipeline is installed**, its record is accounted for. If it could not be installed, the host
has no transformers. -/
theorem ensures_installOn_accounted (hcalm : p.ignore.Calm ops) :
    Ensures (fun s => M.Houses [] s ∧ p.record < s.records.size ∧ s.recordedBy p.record = [])
      (p.installOn ops hosts h) fun answer s => match answer with
        | .ok () => M.Accounts ops p s
        | .error _ => M.Houses [] s :=
  ensures_installOn_of (fun s (hs : M.Accounts ops p s) => hs.houses.valid)
    (fun _ _ hs hrests => hs.of_rests hrests) hhost hcalm (ensures_addTransformer_accounted hhost)
    (ensures_removeTransformer_accounted hhost)
    (ensures_retransform_accounted hhost hintroduced hcalm)

include hhost in
/-- **When a pipeline was taken out,** the host has no transformers, even if it could not restore the
classes. -/
theorem ensures_resetOn_accounted :
    Ensures (M.Accounts ops p) (p.resetOn hosts h) fun _ => M.Houses [] := by
  have hretransform (classes : List LoadedClass) :
      Ensures (fun s => M.Houses [] s ∧ ∀ c ∈ classes, (M.view s.world).Lists c)
        (retransformInBatches hosts h classes) fun _ => M.Houses [] := by
    have hbatches : Ensures (fun s => M.Houses [] s ∧ ∀ c ∈ classes, (M.view s.world).Lists c)
        (retransformInBatches hosts h classes)
        fun _ s => M.Houses [] s ∧ ∀ c ∈ classes, (M.view s.world).Lists c := by
      refine ensures_retransformInBatches_of_calls
        (fun s journal hs => ⟨hs.1.of_world_eq rfl, hs.2⟩) fun cs hsub s hs answer s' hrun => ?_
      obtain ⟨handles, hreruns, -⟩ :=
        hhost.retransform hs.1.valid (fun c hc => hs.2 c (hsub hc)) hrun
      obtain ⟨hs', hlisting⟩ := hs.1.of_reruns_nil hreruns
      refine ⟨hs', fun c hc => ?_⟩
      rw [HostView.Lists, hlisting]
      exact hs.2 c hc
    exact hbatches.mono fun _ _ hs => hs.1
  have hloaded : Ensures (M.Houses []) (hosts.loadedClasses h) fun answer s => M.Houses [] s
      ∧ ∀ loaded, answer = .ok loaded → ∀ c ∈ loaded, (M.view s.world).Lists c := by
    intro s hs answer s' hrun
    obtain ⟨hrests, hlisted⟩ := hhost.loadedClasses hs.valid hrun
    refine ⟨hs.of_rests hrests, fun loaded hanswer c hc => ?_⟩
    rw [hrests.view]
    exact (hlisted loaded hanswer c).1 hc
  have hrest : Ensures (M.Houses []) (p.restoreOn hosts h) fun _ => M.Houses [] := by
    have hrecorded : Ensures (M.Houses []) (recorded p.record : Act ε _) fun _ => M.Houses [] := by
      intro s hs names s' hrun
      cases hrun
      exact hs
    refine hrecorded.bind fun names => hloaded.bind fun answer => ?_
    rcases answer with e | loaded
    · exact (ensures_pure _).mono fun _ _ hs => hs.2.1
    · refine fun s hs => ((hretransform _).bind fun _ => ?_) s
        ⟨hs.1, fun c hc => hs.2 loaded rfl c (List.mem_filter.1 hc).1⟩
      intro s hs answer s' hrun
      cases hrun
      exact hs.of_world_eq rfl
  rw [resetOn_eq]
  refine (ensures_removeTransformer_accounted hhost).bind fun found => ?_
  cases found with
  | true => exact hrest
  | false =>
    have hlog : Ensures (M.Houses []) (log .warn "transformer was not registered" [])
        fun _ => M.Houses [] :=
      (settles_log (fun s journal hs => hs.of_world_eq rfl) _ _ _).safe.ensures
    exact hlog.bind fun _ => hrest

end Pipeline

/-- **What is built of modules** is accounted for once it is installed. -/
theorem Agent.ensures_buildAndInstall_accounted (hhost : HostContract ops hosts h M)
    (hintroduced : ∀ w handle k, M.valid w → (M.view w).classes handle = some k →
      k.IsIntroduced ops M)
    (tracer : Tracer) {modules : Act ε (List Module)} (hmodules : M.Spares modules) :
    Ensures (M.Houses []) (buildAndInstall ops hosts tracer h modules) fun answer s =>
      match answer with
      | .ok p => p.ignore.Calm ops ∧ M.Accounts ops p s
      | .error _ => M.Houses [] s := by
  intro s hs answer s' hrun
  obtain ⟨found, s₁, hfound, -⟩ := exists_of_run_bind hrun
  let p := Pipeline.ofModules tracer found s₁.records.size
  let s₂ : Session ε :=
    { s₁ with journal := built tracer found s₁.journal, records := s₁.records.push [] }
  have hcalm : p.ignore.Calm ops := Pipeline.calm_ofModules tracer found _
  have hhouses : M.Houses [] s₂ :=
    (hs.of_rests (hmodules s found s₁ hs.valid hfound)).of_world_eq rfl
  have hnew : p.record < s₂.records.size := by
    rw [Array.size_push]
    exact Nat.lt_succ_self _
  have hempty : s₂.recordedBy p.record = [] := by
    show ((s₁.records.push [])[s₁.records.size]?).getD [] = []
    rw [Array.getElem?_push_size]
    rfl
  have hinstalled := Pipeline.ensures_installOn_accounted hhost hintroduced hcalm s₂
    ⟨hhouses, hnew, hempty⟩
  rw [run_buildAndInstall hfound] at hrun
  rcases hinstall : (p.installOn ops hosts h).run s₂ with ⟨q | e | ⟨⟩, s₃⟩
  · rw [hinstall] at hrun
    cases hrun
  · rw [hinstall] at hrun
    cases hrun
    exact hinstalled _ _ hinstall
  · rw [hinstall] at hrun
    cases hrun
    exact ⟨hcalm, hinstalled _ _ hinstall⟩

end Introduced

namespace Agent

open AgentAct

/-! ### Steps -/

/-- What may happen next to an agent and the host it works on: the host defines a class and passes it
through the transformers, or takes it as it is; it transforms some classes again; or the agent is
called. The calls need not succeed, but they do not panic. -/
inductive Move (ops : LoaderOps ε) (hosts : HostOps ε) (h : HostId) (M : HostModel ε) :
    Agent × Session ε → Agent × Session ε → Prop
  | define {a : Agent} {s s₁ s' : Session ε} {handle : Nat} {k : HostedClass} (hrests : M.Rests s s₁)
      (hnew : (M.view s₁.world).classes handle = none) (hnamed : k.IsNamed)
      (hpasses : M.Passes ops handle k false s₁ s') : Move ops hosts h M (a, s) (a, s')
  | take {a : Agent} {s s₁ s' : Session ε} {handle : Nat} {k : HostedClass} (hrests : M.Rests s s₁)
      (hnew : (M.view s₁.world).classes handle = none) (hnamed : k.IsNamed)
      (hbecomes : M.Becomes s₁ ((M.view s₁.world).set handle k) s') : Move ops hosts h M (a, s) (a, s')
  | retransform {a : Agent} {s s' : Session ε} {classes : List LoadedClass}
      {answer : Except HostError Unit} (hlists : ∀ c ∈ classes, (M.view s.world).Lists c)
      (hrun : (hosts.retransform h classes).run s = (.ok answer, s')) :
      Move ops hosts h M (a, s) (a, s')
  | initializeWith {a a' : Agent} {s s' : Session ε} {tracer : Tracer} {jar : Option String}
      {modules : Act ε (List Module)} {answer : Except AgentError Unit} (hmodules : M.Spares modules)
      (hrun : (Agent.initializeWith ops hosts tracer h jar modules).runFrom a s
        = ((.ok answer, a'), s')) :
      Move ops hosts h M (a, s) (a', s')
  | initInstrumentation {a a' : Agent} {s s' : Session ε} {tracer : Tracer}
      {modules : Act ε (List Module)} {answer : Except AgentError Unit} (hmodules : M.Spares modules)
      (hrun : (Agent.initInstrumentation ops hosts tracer h modules).runFrom a s
        = ((.ok answer, a'), s')) :
      Move ops hosts h M (a, s) (a', s')
  | reset {a a' : Agent} {s s' : Session ε} {answer : Except AgentError Unit}
      (hrun : (Agent.reset hosts).runFrom a s = ((.ok answer, a'), s')) :
      Move ops hosts h M (a, s) (a', s')

/-- **Invariant:** without a pipeline, the host has no transformers; a pipeline that is installed is the
only one, and its record is accounted for. -/
structure Fair (ops : LoaderOps ε) (h : HostId) (M : HostModel ε) (a : Agent)
    (s : Session ε) : Prop where
  inactive : a.installed = none → M.Houses [] s
  active {i : Installed} : a.installed = some i →
    i.host = h ∧ i.pipeline.ignore.Calm ops ∧ M.Accounts ops i.pipeline s

namespace Fair

theorem of_none (ha : a.installed = none) (hs : M.Houses [] s) : Fair ops h M a s :=
  ⟨fun _ => hs, fun hsome => absurd (ha.symm.trans hsome) nofun⟩

/-- Where the agent's archive is does not matter. -/
theorem of_installed_eq (hfair : Fair ops h M a s) (ha : a'.installed = a.installed) :
    Fair ops h M a' s :=
  ⟨fun hnone => hfair.inactive (ha ▸ hnone), fun hsome => hfair.active (ha ▸ hsome)⟩

/-- Fairness is told by the view of the host and the records. -/
theorem of_rests (hfair : Fair ops h M a s) (hrests : M.Rests s s') : Fair ops h M a s' := by
  refine ⟨fun hnone => (hfair.inactive hnone).of_rests hrests, fun hsome => ?_⟩
  obtain ⟨hi, hcalm, hs⟩ := hfair.active hsome
  exact ⟨hi, hcalm, hs.of_rests hrests⟩

/-- A fair host is a valid one. -/
theorem valid (hfair : Fair ops h M a s) : M.valid s.world := by
  cases ha : a.installed with
  | none => exact (hfair.inactive ha).valid
  | some i => exact (hfair.active ha).2.2.houses.valid

/-- A class that is taken as it is leaves the record alone. -/
theorem take (hfair : Fair ops h M a s) {handle : Nat} {k : HostedClass}
    (hnew : (M.view s.world).classes handle = none) (hnamed : k.IsNamed)
    (hbecomes : M.Becomes s ((M.view s.world).set handle k) s') : Fair ops h M a s' := by
  refine ⟨fun hnone => ?_, fun hsome => ?_⟩
  · exact (hfair.inactive hnone).of_set hbecomes.valid hbecomes.view hnamed
  · obtain ⟨hi, hcalm, hs⟩ := hfair.active hsome
    refine ⟨hi, hcalm, hs.of_set hbecomes.valid hbecomes.view hnamed
      (fun k' hclass => absurd (hnew.symm.trans hclass) nofun) (by rw [hbecomes.records])
      fun name hname => .inr ?_⟩
    rw [Session.recordedBy, hbecomes.records] at hname
    exact hname

section Introduced

variable (hhost : HostContract ops hosts h M)
  (hintroduced : ∀ w handle k, M.valid w → (M.view w).classes handle = some k →
    k.IsIntroduced ops M)

include hhost hintroduced in
/-- **A class that is defined** leaves the agent fair: what its transformer records is not ignored. -/
theorem define (hfair : Fair ops h M a s) {handle : Nat} {k : HostedClass}
    (hnew : (M.view s.world).classes handle = none) (hnamed : k.IsNamed)
    (hpasses : M.Passes ops handle k false s s') : Fair ops h M a s' := by
  refine ⟨fun hnone => ?_, fun hsome => ?_⟩
  · have hs := hfair.inactive hnone
    have hbecomes := hpasses.of_nil hs.transformers
    exact hs.of_set hbecomes.valid hbecomes.view hnamed
  · obtain ⟨hi, hcalm, hs⟩ := hfair.active hsome
    have ⟨answer, s₁, _, hbecomes⟩ := hpasses
    -- The class is in its place once it has passed, and so it is introduced.
    have hpassed : (k.passed answer).IsIntroduced ops M := by
      refine hintroduced _ handle _ hbecomes.valid ?_
      rw [hbecomes.view, HostView.classes_set_self]
    exact ⟨hi, hcalm, hs.of_passes hhost hcalm.neverPanic ⟨hpassed.className, hpassed.described⟩ hnamed
      (fun k' hclass => absurd (hnew.symm.trans hclass) nofun) hpasses⟩

include hhost hintroduced in
/-- Classes that are transformed again leave the agent fair. -/
theorem retransform (hfair : Fair ops h M a s) {classes : List LoadedClass}
    {answer : Except HostError Unit} (hlists : ∀ c ∈ classes, (M.view s.world).Lists c)
    (hrun : (hosts.retransform h classes).run s = (.ok answer, s')) : Fair ops h M a s' := by
  obtain ⟨handles, hreruns, -⟩ := hhost.retransform hfair.valid hlists hrun
  refine ⟨fun hnone => ((hfair.inactive hnone).of_reruns_nil hreruns).1, fun hsome => ?_⟩
  obtain ⟨hi, hcalm, hs⟩ := hfair.active hsome
  exact ⟨hi, hcalm, (hs.of_reruns hhost hcalm.neverPanic hintroduced hreruns).1⟩

include hhost hintroduced in
/-- A pipeline that is installed is the only one, and nothing that it recorded is ignored. -/
theorem initInstrumentation (hfair : Fair ops h M a s) {tracer : Tracer}
    {modules : Act ε (List Module)} {answer : Except AgentError Unit} (hmodules : M.Spares modules)
    (hrun : (Agent.initInstrumentation ops hosts tracer h modules).runFrom a s
      = ((.ok answer, a'), s')) : Fair ops h M a' s' := by
  by_cases hinitialized : a.isInitialized = true
  · rw [runFrom_initInstrumentation_of_some hinitialized] at hrun
    cases hrun
    exact hfair.of_rests ⟨hfair.valid, rfl, rfl⟩
  · rw [Agent.isInitialized, Option.not_isSome_iff_eq_none] at hinitialized
    rw [runFrom_initInstrumentation_of_none hinitialized] at hrun
    have hbuilt := ensures_buildAndInstall_accounted hhost hintroduced tracer hmodules s
      (hfair.inactive hinitialized)
    rcases hbuild : (buildAndInstall ops hosts tracer h modules).run s with ⟨q | e | p, s₁⟩
    · rw [hbuild] at hrun
      cases hrun
    · rw [hbuild] at hrun
      cases hrun
      exact of_none hinitialized (hbuilt _ _ hbuild)
    · rw [hbuild] at hrun
      cases hrun
      obtain ⟨hcalm, haccounts⟩ := hbuilt _ _ hbuild
      refine ⟨fun hnone => ?_, fun {i} hsome => ?_⟩
      · cases hnone
      · cases hsome
        exact ⟨rfl, hcalm, haccounts⟩

include hhost in
/-- A reset takes the only pipeline away, if there is one. -/
theorem reset (hfair : Fair ops h M a s) {answer : Except AgentError Unit}
    (hrun : (Agent.reset hosts).runFrom a s = ((.ok answer, a'), s')) : Fair ops h M a' s' := by
  cases ha : a.installed with
  | none =>
    rw [runFrom_reset_of_none ha] at hrun
    cases hrun
    exact hfair
  | some i =>
    obtain ⟨rfl, -, hs⟩ := hfair.active ha
    have hreset := Pipeline.ensures_resetOn_accounted hhost s hs
    rw [runFrom_reset_of_some ha] at hrun
    rcases hreset' : (i.pipeline.resetOn hosts i.host).run s with ⟨q | e | restored, s₁⟩
    · rw [hreset'] at hrun
      cases hrun
    · rw [hreset'] at hrun
      cases hrun
      exact of_none rfl (hreset _ _ hreset')
    · rw [hreset'] at hrun
      cases hrun
      exact of_none rfl ((hreset _ _ hreset').of_world_eq rfl)

include hhost hintroduced in
/-- **Each step** keeps an agent fair. -/
theorem move {x y : Agent × Session ε} (hfair : Fair ops h M x.1 x.2)
    (hmove : Move ops hosts h M x y) : Fair ops h M y.1 y.2 := by
  cases hmove with
  | define hrests hnew hnamed hpasses =>
    exact (hfair.of_rests hrests).define hhost hintroduced hnew hnamed hpasses
  | take hrests hnew hnamed hbecomes => exact (hfair.of_rests hrests).take hnew hnamed hbecomes
  | retransform hlists hrun => exact hfair.retransform hhost hintroduced hlists hrun
  | @initializeWith a a' s s' tracer jar modules answer hmodules hrun =>
    rw [runFrom_initializeWith] at hrun
    have hjar : Fair ops h M { a with jar } s := hfair.of_installed_eq rfl
    exact hjar.initInstrumentation hhost hintroduced hmodules hrun
  | initInstrumentation hmodules hrun =>
    exact hfair.initInstrumentation hhost hintroduced hmodules hrun
  | reset hrun => exact hfair.reset hhost hrun

include hhost hintroduced in
/-- Whole runs keep an agent fair. -/
theorem moves {x y : Agent × Session ε} (hfair : Fair ops h M x.1 x.2)
    (hmoves : Relation.ReflTransGen (Move ops hosts h M) x y) : Fair ops h M y.1 y.2 := by
  induction hmoves with
  | refl => exact hfair
  | tail _ hmove ih => exact ih.move hhost hintroduced hmove

end Introduced

end Fair

/-- **Ignored classes are invisible to the modules.** Whatever a pipeline is made of and whenever it is
asked, this is true of a class that its ignore rules hit by name and loader:

* transforming it is no more than asking for its loader and asking the ignore rules, whatever the rules
  of the pipeline are and whatever the class file is; nothing is answered and nothing is recorded;
* telling whether it may be transformed when the pipeline is installed is no more than asking the ignore
  rules, whatever the rules are;
* installing the pipeline is the same, whatever the host would do with calls for such a class.

In a whole run of an agent, a name is in the record only if there is a class of that name that is not
ignored. -/
theorem ignored_unseen (hhost : HostContract ops hosts h M)
    (hintroduced : ∀ w handle k, M.valid w → (M.view w).classes handle = some k →
      k.IsIntroduced ops M)
    (ha : a.installed = none) (hs : M.Houses [] s)
    (hmoves : Relation.ReflTransGen (Move ops hosts h M) (a, s) (a', s')) :
    (∀ (p : Pipeline) (r : TransformRequest) name l (t t₁ : Session ε), r.className = some name →
        (r.loaderDescription ops).run t = (.ok l, t₁) → p.ignore.Hits ops (binaryName name) l →
        ∃ journal, ∀ rules bytes redefining,
          ({ p with rules }.transform ops { r with bytes, redefining }).run t
            = (.ok none, { t₁ with journal }))
    ∧ (∀ (p : Pipeline) (c : LoadedClass) (t : Session ε), p.ignore.Hits ops c.name c.loader →
        ∃ journal, ∀ rules, ({ p with rules }.mayTransform ops c).run t
          = (.ok false, { t with journal }))
    ∧ (∀ (p : Pipeline) (hosts : HostOps ε) (h : HostId)
          (retransform : HostId → List LoadedClass → Act ε (Except HostError Unit)) (t : Session ε),
        (∀ classes, (∀ c ∈ classes, ¬ p.ignore.Hits ops c.name c.loader) →
          retransform h classes = hosts.retransform h classes) →
        (p.installOn ops { hosts with retransform } h).run t = (p.installOn ops hosts h).run t)
    ∧ ∀ i, a'.installed = some i → ∀ name ∈ s'.recordedBy i.pipeline.record,
        ∃ handle k, (M.view s'.world).classes handle = some k ∧ k.name = name
          ∧ ¬ i.pipeline.ignore.Hits ops k.name k.description := by
  refine ⟨fun p r name l t t₁ hname hloader hhits => Pipeline.run_transform_of_hits hname hloader hhits,
    fun p c t hhits => Pipeline.run_mayTransform_of_hits hhits t,
    fun p hosts h retransform t hsame => Pipeline.run_installOn_congr hsame t,
    fun i hi name hname => ?_⟩
  have hfair : Fair ops h M a' s' := (Fair.of_none ha hs).moves hhost hintroduced hmoves
  obtain ⟨-, -, haccounts⟩ := hfair.active hi
  exact haccounts.recorded hname

/-! ### Two classes of one name -/

/-- The host in memory tells transformers what it lists. -/
theorem isIntroduced_of_memory {loaders : Array MemoryLoader} {faults : MemoryFaults} (w : MemoryHost)
    (handle : Nat) (k : HostedClass) (hvalid : (MemoryHost.model loaders faults).valid w)
    (hclass : ((MemoryHost.model loaders faults).view w).classes handle = some k) :
    k.IsIntroduced MemoryHost.loaderOps (MemoryHost.model loaders faults) := by
  obtain ⟨c, -, rfl⟩ := Option.map_eq_some_iff.1 hclass
  refine ⟨⟨c.name, rfl, rfl⟩, fun s hs => ?_⟩
  obtain ⟨name, loader, initial, current, modifiable⟩ := c
  cases loader with
  | none => rfl
  | some l =>
    have hloaders : s.world.loaders = w.loaders := hs.1.trans hvalid.1.symm
    show Except.ok (((s.world.loaders[l]?).getD default).description) = _
    rw [hloaders]
    rfl

/-- At first there are no classes and no transformers. -/
theorem houses_of_memory_new (loaders : Array MemoryLoader) :
    (MemoryHost.model loaders .none).Houses [] (.start (.new loaders)) := by
  refine ⟨⟨rfl, rfl⟩, rfl, fun {handle k} hclass => ?_⟩
  have hnone : ((MemoryHost.model loaders .none).view (MemoryHost.new loaders)).classes handle = none :=
    rfl
  cases hnone.symm.trans hclass

/-- Two loaders. The ignore rules hit the classes of the first one. -/
def twinLoaders : Array MemoryLoader :=
  #[⟨"reflection", .of "sun.reflect.DelegatingClassLoader", none, [], false, false, false⟩,
    ⟨"app", .of "AppClassLoader", none, [], false, false, false⟩]

/-- Both loaders define a class `A`, and then the agent is initialized with the module. -/
def twinRun : Option (Installed × Agent × Session MemoryHost) :=
  match (MemoryHost.define "A" (some 0) ClassFile.idle true).run (.start (.new twinLoaders)) with
  | (.ok _, s₁) => match (MemoryHost.define "A" (some 1) ClassFile.idle true).run s₁ with
    | (.ok _, s₂) => match (initializeWith MemoryHost.loaderOps MemoryHost.hostOps
        ⟨.default, default⟩ 0 none (return [sampleModule])).runFrom .new s₂ with
      | ((.ok (.ok ()), a'), s') => a'.installed.map fun i => (i, a', s')
      | _ => none
    | _ => none
  | _ => none

/-- The host in memory defines a class that bears the name in its class file. -/
theorem move_of_memory_define {loaders : Array MemoryLoader} {faults : MemoryFaults}
    {s s' : Session MemoryHost} {name : String} {loader : Option LoaderId} {bytes : Bytes}
    {c : MemoryClass} (hvalid : (MemoryHost.model loaders faults).valid s.world)
    (hnamed : ∀ t, TypeDescription.read bytes = .ok t → binaryName name = t.name)
    (hrun : (MemoryHost.define name loader bytes true).run s = (.ok c, s')) :
    Move MemoryHost.loaderOps MemoryHost.hostOps 0 (MemoryHost.model loaders faults) (a, s) (a, s')
      ∧ (MemoryHost.model loaders faults).valid s'.world := by
  obtain ⟨hnew, hpasses⟩ := MemoryHost.passes_of_define hvalid hrun
  have ⟨_, _, _, hbecomes⟩ := hpasses
  have hnamed' : (s.world.hosted ⟨name, loader, bytes, bytes, true⟩).IsNamed := hnamed
  exact ⟨.define ⟨hvalid, rfl, rfl⟩ hnew hnamed' hpasses, hbecomes.valid⟩

/-- The host defines both classes, and then the agent is called. -/
theorem moves_of_twinRun {i : Installed} {a' : Agent} {s' : Session MemoryHost}
    (hrun : twinRun = some (i, a', s')) :
    Relation.ReflTransGen (Move MemoryHost.loaderOps MemoryHost.hostOps 0
          (MemoryHost.model twinLoaders .none)) (.new, .start (.new twinLoaders)) (a', s')
      ∧ a'.installed = some i := by
  unfold twinRun at hrun
  split at hrun
  case h_2 => cases hrun
  next c s₁ hdefine =>
  split at hrun
  case h_2 => cases hrun
  next c' s₂ hdefine' =>
  split at hrun
  case h_2 => cases hrun
  next a s hinitialize =>
  obtain ⟨i', hinstalled, heq⟩ := Option.map_eq_some_iff.1 hrun
  cases heq
  obtain ⟨hfirst, hvalid₁⟩ :=
    move_of_memory_define (a := .new) ⟨rfl, rfl⟩ MemoryHost.name_of_read_idle hdefine
  obtain ⟨hsecond, hvalid₂⟩ :=
    move_of_memory_define (a := .new) hvalid₁ MemoryHost.name_of_read_idle hdefine'
  refine ⟨((Relation.ReflTransGen.single hfirst).tail hsecond).tail (.initializeWith ?_ hinitialize),
    hinstalled⟩
  intro s found s' hvalid hrun
  cases hrun
  exact ⟨hvalid, rfl, rfl⟩

/-- Whether the class of the first loader is still there and ignored, and its name is recorded. -/
def twinRecorded : Bool :=
  match twinRun with
  | none => false
  | some (i, _, s') => match ((MemoryHost.model twinLoaders .none).view s'.world).classes 0 with
    | none => false
    | some k => match ((i.pipeline.ignore.coversName MemoryHost.loaderOps k.name
        k.description).run s').1 with
      | .ok true => k.name = "A" ∧ "A" ∈ s'.recordedBy i.pipeline.record
      | _ => false

/-- The run of the two classes called `A` ends with the ignored one still there and its name recorded.
-/
theorem exists_twinRun : ∃ i a' s' k, twinRun = some (i, a', s')
    ∧ ((MemoryHost.model twinLoaders .none).view s'.world).classes 0 = some k
    ∧ k.name = "A" ∧ k.IsIgnored MemoryHost.loaderOps i.pipeline
    ∧ "A" ∈ s'.recordedBy i.pipeline.record := by
  have hcheck : twinRecorded = true := by
    decide +kernel
  unfold twinRecorded at hcheck
  split at hcheck
  case h_1 => cases hcheck
  next i a' s' hrun =>
  split at hcheck
  case h_1 => cases hcheck
  next k hclass =>
  split at hcheck
  case h_2 => cases hcheck
  next hhits =>
  obtain ⟨hname, hrecorded⟩ := of_decide_eq_true hcheck
  exact ⟨i, a', s', k, hrun, hclass, hname, IgnoreRules.hits_of_run hhits, hrecorded⟩

/-- **The name of an ignored class may be recorded,** on account of another class that bears it. The host
knows both classes by their own names. -/
theorem ignored_name_recorded : ∃ i a' s' k,
    Relation.ReflTransGen (Move MemoryHost.loaderOps MemoryHost.hostOps 0
        (MemoryHost.model twinLoaders .none)) (.new, .start (.new twinLoaders)) (a', s')
      ∧ a'.installed = some i
      ∧ ((MemoryHost.model twinLoaders .none).view s'.world).classes 0 = some k
      ∧ k.IsNamed ∧ k.IsIntroduced MemoryHost.loaderOps (MemoryHost.model twinLoaders .none)
      ∧ k.IsIgnored MemoryHost.loaderOps i.pipeline ∧ k.name ∈ s'.recordedBy i.pipeline.record := by
  obtain ⟨i, a', s', k, hrun, hclass, hname, hignored, hrecorded⟩ := exists_twinRun
  obtain ⟨hmoves, hinstalled⟩ := moves_of_twinRun hrun
  have hhost : HostContract MemoryHost.loaderOps MemoryHost.hostOps 0
      (MemoryHost.model twinLoaders .none) := MemoryHost.hostContract rfl 0
  have hfair : Fair MemoryHost.loaderOps 0 (MemoryHost.model twinLoaders .none) a' s' :=
    (Fair.of_none rfl (houses_of_memory_new _)).moves hhost isIntroduced_of_memory hmoves
  obtain ⟨-, -, haccounts⟩ := hfair.active hinstalled
  exact ⟨i, a', s', k, hmoves, hinstalled, hclass, haccounts.houses.named hclass,
    isIntroduced_of_memory _ 0 k hfair.valid hclass, hignored, hname ▸ hrecorded⟩

/-- In that run it is the class of the other loader that accounts for the name. -/
theorem ignored_unseen_twins : ∃ i a' s' k,
    twinRun = some (i, a', s')
      ∧ ((MemoryHost.model twinLoaders .none).view s'.world).classes 0 = some k
      ∧ k.IsIgnored MemoryHost.loaderOps i.pipeline
      ∧ ∃ handle twin, ((MemoryHost.model twinLoaders .none).view s'.world).classes handle = some twin
        ∧ twin.name = k.name ∧ ¬ twin.IsIgnored MemoryHost.loaderOps i.pipeline := by
  obtain ⟨i, a', s', k, hrun, hclass, hname, hignored, hrecorded⟩ := exists_twinRun
  obtain ⟨hmoves, hinstalled⟩ := moves_of_twinRun hrun
  have hhost : HostContract MemoryHost.loaderOps MemoryHost.hostOps 0
      (MemoryHost.model twinLoaders .none) := MemoryHost.hostContract rfl 0
  obtain ⟨-, -, -, haccounted⟩ := ignored_unseen hhost isIntroduced_of_memory rfl
    (houses_of_memory_new _) hmoves
  exact ⟨i, a', s', k, hrun, hclass, hignored, hname ▸ haccounted i hinstalled "A" hrecorded⟩

end Agent

end AdviceWeaver

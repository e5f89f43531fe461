import AdviceWeaver.Proofs.Hosting.Settling

/-!
# Pipelines that arrive after the classes

A pipeline may be installed on a host that has classes already. Those that the pipeline rewrites are
never left out, and whatever batches the host refuses, they are transformed again. So all classes
settle, as they do if they are defined after the pipeline was installed.

## Main results

* `HostModel.Settled.of_candidates` — what is not transformed again has settled already.
* `Pipeline.returns_installOn_settled` — once a pipeline is installed, all classes have settled.
-/

namespace AdviceWeaver

open Act

variable {ε : Type} {ops : LoaderOps ε} {hosts : HostOps ε} {h : HostId} {M : HostModel ε}
  {base : Nat → Option HostedClass} {left : Nat → Prop} {s s' : Session ε} {handle : Nat}
  {k : HostedClass} {p : Pipeline} {redefining : Bool} {answer : TransformRequest → Option Bytes}

theorem HostedClass.IsProper.initial (h : k.IsProper ops M) : k.initial.IsProper ops M :=
  ⟨h.modifiable, h.named, h.className, h.described⟩

namespace HostModel

/-- The class is in the listing of a host that has these classes. -/
def IsListed (base : Nat → Option HostedClass) (c : LoadedClass) : Prop :=
  (base c.handle).map (fun k => k.listed c.handle) = some c

/-- The class of a handle is one that the answers rewrite. -/
def IsRewritten (base : Nat → Option HostedClass) (answer : TransformRequest → Option Bytes)
    (handle : Nat) : Prop :=
  ∃ k, base handle = some k ∧ (answer (k.request false)).isSome = true

/-! ### Hosts without transformers -/

/-- The host has no transformers, and it has certain classes in their initial forms. -/
structure Idle (M : HostModel ε) (base : Nat → Option HostedClass) (s : Session ε) : Prop where
  valid : M.valid s.world
  view : M.view s.world = ⟨[], base⟩
  initial : (M.view s.world).initial = base

namespace Idle

/-- A host that rests is idle. -/
theorem of_rests (hs : M.Idle base s) (hrests : M.Rests s s') : M.Idle base s' := by
  refine ⟨hrests.valid, hrests.view.trans hs.view, ?_⟩
  rw [hrests.view]
  exact hs.initial

/-- A class that passes has its initial form. -/
theorem of_passes (hs : M.Idle base s) (hpasses : M.Passes ops handle k redefining s s') :
    M.Idle (Function.update base handle (some k.initial)) s' := by
  have hbecomes := hpasses.of_nil (congrArg HostView.transformers hs.view)
  refine ⟨hbecomes.valid, ?_, ?_⟩
  · rw [hbecomes.view, hs.view]
    rfl
  · rw [hbecomes.view, HostView.initial_set, hs.initial]
    rfl

/-- Only the world matters. -/
theorem of_world_eq (hs : M.Idle base s) (h : s'.world = s.world) : M.Idle base s' :=
  ⟨h ▸ hs.valid, h ▸ hs.view, h ▸ hs.initial⟩

/-- **When a pipeline joins,** the classes that it rewrites are left to be transformed. All others
have settled already. -/
theorem settled (hs : M.Idle base s) (hrecord : p.record < s.records.size)
    (hempty : s.recordedBy p.record = [])
    (hbecomes : M.Becomes s { M.view s.world with
      transformers := (M.view s.world).transformers ++ [.pipeline p] } s') :
    M.Settled p answer base (IsRewritten base answer) s' := by
  have hrecorded : s'.recordedBy p.record = [] := by
    rw [Session.recordedBy, hbecomes.records]
    exact hempty
  refine ⟨hbecomes.valid, hbecomes.records ▸ hrecord, ?_, ?_, fun {handle k} hclass => ?_,
    fun {handle k} hbase hsome => .inr ⟨k, hbase, hsome⟩, fun {name} hname => ?_⟩
  · rw [hbecomes.view, hs.view]
    rfl
  · rw [hbecomes.view]
    exact hs.initial
  · rw [hbecomes.view] at hclass
    have hk : k = k.initial := by
      have hinitial : base handle = some k.initial := by
        rw [← hs.initial, HostView.initial]
        exact congrArg (Option.map _) hclass
      rw [hs.view] at hclass
      exact Option.some.inj (hclass.symm.trans hinitial)
    cases hanswer : answer (k.request false) with
    | none =>
      refine .inl ?_
      rw [HostedClass.settled, hanswer]
      exact hk
    | some out =>
      rw [hs.view] at hclass
      exact .inr ⟨k, hclass, by rw [hanswer]; rfl⟩
  · rw [hrecorded] at hname
    cases hname

end Idle

/-! ### Candidates -/

/-- The journal has no part in what is settled. -/
theorem Settled.journal (s : Session ε) (journal : Journal) (hs : M.Settled p answer base left s) :
    M.Settled p answer base left { s with journal } :=
  hs.of_eq hs.valid rfl rfl

/-- What a host lists depends only on the classes that it has. -/
theorem Settled.lists_iff (hs : M.Settled p answer base left s) {c : LoadedClass} :
    (M.view s.world).Lists c ↔ IsListed base c := by
  rw [IsListed, HostView.Lists, HostView.listing, ← hs.initial, HostView.initial, Option.map_map]
  rfl

section Answers

variable (hp : M.Answers ops p answer)
  (hproper : ∀ handle k, base handle = some k → k.IsProper ops M)
include hp hproper

/-- **What is not transformed again** has settled already. -/
theorem Settled.of_candidates {loaded : List LoadedClass} {may : LoadedClass → Bool}
    (hs : M.Settled p answer base (IsRewritten base answer) s)
    (hloaded : ∀ c, c ∈ loaded ↔ IsListed base c)
    {good : Session ε → Prop} (hjournal : ∀ s journal, good s → good { s with journal })
    (hmay : ∀ c, Settles good (p.mayTransform ops c) (.ok (may c))) (hgood : good s) :
    M.Settled p answer base (fun handle => ∃ c ∈ loaded.filter may, c.handle = handle) s := by
  refine hs.mono fun handle hleft => ?_
  obtain ⟨k, hbase, hsome⟩ := hleft
  have hlisted : k.listed handle ∈ loaded := by
    rw [hloaded, IsListed, show (k.listed handle).handle = handle from rfl, hbase]
    rfl
  have heligible : Settles good (p.mayTransform ops (k.listed handle)) (.ok true) :=
    hp.eligible handle s hs.valid (hproper handle k hbase) hsome good hjournal
  have hkept : may (k.listed handle) = true :=
    Except.ok.inj ((hmay (k.listed handle)).unique hgood heligible)
  exact ⟨k.listed handle, List.mem_filter.2 ⟨hlisted, hkept⟩, rfl⟩

end Answers

end HostModel

/-! ### Installing -/

namespace Pipeline

open HostModel

section Installing

variable (hhost : HostContract ops hosts h M) (hwilling : hosts.Willing ops h M)
  (hops : ops.Reliable M.valid) (hcalm : p.ignore.Calm ops) (hp : M.Answers ops p answer)
  (hproper : ∀ handle k, base handle = some k → k.IsProper ops M)
include hhost hwilling hops hcalm hp hproper

/-- A willing host transforms classes again without a panic. -/
theorem safe_retransform_settled {classes : List LoadedClass}
    (hlisted : ∀ c ∈ classes, IsListed base c) :
    Safe (M.Settled p answer base fun _ => True) (hosts.retransform h classes) := by
  intro s hs
  have hlists (c : LoadedClass) (hc : c ∈ classes) : (M.view s.world).Lists c :=
    hs.lists_iff.2 (hlisted c hc)
  have hpanics : Transformer.NeverPanic ops M.valid (M.view s.world).transformers := by
    rw [hs.transformers]
    exact neverPanic_pipeline hops hcalm.neverPanic
  obtain ⟨result, s', hrun, -⟩ := hwilling.retransform classes s ⟨hs.valid, hlists, hpanics⟩
  obtain ⟨handles, hreruns, -, -⟩ := hhost.retransform hs.valid hlists hrun
  have hs' := hs.of_reruns hp (fun handle k hbase => (hproper handle k hbase).named) hreruns
  exact ⟨result, s', hrun, hs'.mono fun _ _ => trivial⟩

/-- **All classes settle** that are transformed again. -/
theorem returns_retransform_settled {classes : List LoadedClass}
    (hlisted : ∀ c ∈ classes, IsListed base c) :
    Returns (M.Settled p answer base fun handle => ∃ c ∈ classes, c.handle = handle)
      (retransformInBatches hosts h classes) fun _ => M.Settled p answer base fun _ => False := by
  have hsafe : Safe (M.Settled p answer base fun _ => True)
      (retransformInBatches hosts h classes) :=
    safe_retransformInBatches Settled.journal fun cs hsub =>
      safe_retransform_settled hhost hwilling hops hcalm hp hproper fun c hc => hlisted c (hsub hc)
  have hbatches := hhost.ensures_retransformInBatches
    (fun cs s => M.Settled p answer base (fun handle => ∃ c ∈ cs, c.handle = handle) s
      ∧ cs ⊆ classes)
    (fun cs s hs => ⟨hs.1.valid, fun c hc => ?_⟩)
    (fun cs s journal hs => ⟨hs.1.journal s journal, hs.2⟩)
    (fun cs cs' handles s s' hs hreruns hsub hdone => ⟨?_, fun c hc => hs.2 (hsub hc)⟩) classes
  · refine (hsafe.returns.mono (fun s hs => hs.mono fun _ _ => trivial) fun _ _ h => h).of_ensures
      fun s hs result s' hrun => ?_
    refine (hbatches s ⟨hs, List.Subset.refl _⟩ result s' hrun).1.mono fun handle hleft => ?_
    obtain ⟨c, hc, -⟩ := hleft
    cases hc
  · have hc' := hlisted c (hs.2 hc)
    obtain ⟨k, hbase, hk⟩ := Option.map_eq_some_iff.1 hc'
    refine ⟨?_, hs.1.lists_iff.2 hc'⟩
    rw [← hk]
    exact (hproper c.handle k hbase).modifiable
  · have hs' := hs.1.of_reruns hp (fun handle k hbase => (hproper handle k hbase).named) hreruns
    refine hs'.mono fun handle hleft => ?_
    obtain ⟨⟨c, hc, rfl⟩, hnot⟩ := hleft
    exact ⟨c, (hdone c hc).resolve_right hnot, rfl⟩

/-- **Once a pipeline is installed** on a willing host without transformers, all classes have
settled. -/
theorem returns_installOn_settled :
    Returns (fun s => M.Idle base s ∧ p.record < s.records.size ∧ s.recordedBy p.record = [])
      (p.installOn ops hosts h) fun result s => result = .ok ()
        ∧ M.Settled p answer base (fun _ => False) s := by
  have hadds : Returns
      (fun s => M.Idle base s ∧ p.record < s.records.size ∧ s.recordedBy p.record = [])
      (hosts.addTransformer h (.pipeline p))
      fun _ => M.Settled p answer base (IsRewritten base answer) := by
    rintro s ⟨hs, hrecord, hempty⟩
    obtain ⟨⟨⟩, s', hrun, -⟩ := hwilling.addTransformer (.pipeline p) s hs.valid
    exact ⟨(), s', hrun, hs.settled hrecord hempty (hhost.addTransformer hs.valid hrun)⟩
  have hsupports : Returns (M.Settled p answer base (IsRewritten base answer))
      (hosts.supportsRetransform h) fun supported s => supported = true
        ∧ M.Settled p answer base (IsRewritten base answer) s := by
    intro s hs
    obtain ⟨supported, s', hrun, hyes⟩ := hwilling.supportsRetransform s hs.valid
    exact ⟨supported, s', hrun, hyes, hs.of_rests (hhost.supportsRetransform hs.valid hrun)⟩
  have hlisted : Returns (M.Settled p answer base (IsRewritten base answer))
      (hosts.loadedClasses h) fun result s => M.Settled p answer base (IsRewritten base answer) s
        ∧ ∃ loaded, result = .ok loaded ∧ ∀ c, c ∈ loaded ↔ IsListed base c := by
    intro s hs
    obtain ⟨result, s', hrun, loaded, hloaded⟩ := hwilling.loadedClasses s hs.valid
    obtain ⟨hrests, hlists⟩ := hhost.loadedClasses hs.valid hrun
    exact ⟨result, s', hrun, hs.of_rests hrests, loaded, hloaded,
      fun c => (hlists loaded hloaded c).trans hs.lists_iff⟩
  -- Whether a class may be transformed has one answer in every such session, so this is a filter.
  choose may hmay using fun c => (exists_settles_mayTransform Settled.journal hcalm c :
    ∃ may, Settles (M.Settled p answer base (IsRewritten base answer)) (p.mayTransform ops c)
      (.ok may))
  unfold installOn
  refine hadds.bind fun _ => hsupports.bind fun supported => ?_
  rintro s ⟨rfl, hs⟩
  refine (hlisted.bind fun result => ?_) s hs
  rintro s ⟨hs, loaded, rfl, hloaded⟩
  have hcandidates : Returns (M.Settled p answer base (IsRewritten base answer))
      (loaded.filterM (p.mayTransform ops)) fun candidates s => candidates = loaded.filter may
        ∧ M.Settled p answer base (fun handle => ∃ c ∈ candidates, c.handle = handle) s := by
    intro s hs
    obtain ⟨s', hrun, hs'⟩ := settles_filterM hmay loaded s hs
    exact ⟨_, s', hrun, rfl, hs'.of_candidates hp hproper hloaded Settled.journal hmay hs'⟩
  refine (hcandidates.bind fun candidates => ?_) s hs
  rintro s ⟨rfl, hs⟩
  have hall (c : LoadedClass) (hc : c ∈ loaded.filter may) : IsListed base c :=
    (hloaded c).1 (List.mem_filter.1 hc).1
  refine ((settles_log Settled.journal _ _ _).safe.returns.bind fun _ => ?_) s hs
  refine (returns_retransform_settled hhost hwilling hops hcalm hp hproper hall).bind fun _ => ?_
  exact returns_pure fun s hs => ⟨rfl, hs⟩

end Installing

end Pipeline

end AdviceWeaver

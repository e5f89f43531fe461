import AdviceWeaver.Proofs.Agent.Calls
import AdviceWeaver.Proofs.Hosting.Memory
import AdviceWeaver.Proofs.Pipeline.Arriving

/-!
# The order of loading

It does not matter whether an agent is initialized before or after the classes are defined. Either
way all classes settle in the forms that the pipeline gives them, whichever handles and whichever
record there are.

## Main results

* `HostModel.DefinesAll.exists_settled` — classes that are defined under a pipeline settle.
* `Agent.exists_run_initializeWith` — classes that are there when an agent is initialized settle, too.
* `Agent.initialize_commutes` — the order does not matter.
-/

namespace AdviceWeaver

open Act

variable {ε : Type} {ops : LoaderOps ε} {hosts : HostOps ε} {h : HostId} {M : HostModel ε}
  {base : Nat → Option HostedClass} {s s' s₁ : Session ε} {handles : List Nat}
  {ks : List HostedClass} {p : Pipeline} {answer : TransformRequest → Option Bytes}

namespace HostModel

/-! ### Where classes are -/

/-- There are these classes at these handles, and no others. -/
structure Places (ks : List HostedClass) (handles : List Nat) (base : Nat → Option HostedClass) :
    Prop where
  found : handles.map base = ks.map fun k => some k.initial
  only {handle : Nat} {k : HostedClass} : base handle = some k → ∃ k' ∈ ks, k = k'.initial

/-- Where classes are after they were defined on a host without classes. -/
theorem DefinesAll.exists_places (h : M.DefinesAll ops ks handles s s')
    (kept : (Nat → Option HostedClass) → Session ε → Prop)
    (hinitial : ∀ {base s}, kept base s → (M.view s.world).initial = base)
    (hrests : ∀ {base s s'}, kept base s → M.Rests s s' → kept base s')
    (hpasses : ∀ {base handle s s'} k, k ∈ ks → kept base s → base handle = none →
      M.Passes ops handle k false s s' → kept (Function.update base handle (some k.initial)) s')
    (hs : kept (fun _ => none) s) : ∃ base, Places ks handles base ∧ kept base s' := by
  obtain ⟨base, hs', hfound, -, horigin⟩ := h.exists_base hinitial hrests hpasses hs
  exact ⟨base, ⟨hfound, fun {handle k} hbase => (horigin handle k hbase).resolve_left nofun⟩, hs'⟩

/-- Classes that are defined without transformers have their initial forms. -/
theorem DefinesAll.exists_idle (h : M.DefinesAll ops ks handles s s')
    (hs : M.Idle (fun _ => none) s) : ∃ base, Places ks handles base ∧ M.Idle base s' :=
  h.exists_places (fun base s => M.Idle base s) Idle.initial Idle.of_rests
    (fun _ _ hs _ hpasses => hs.of_passes hpasses) hs

/-- **Classes that are defined under a pipeline** settle. -/
theorem DefinesAll.exists_settled (h : M.DefinesAll ops ks handles s s')
    (hp : M.Answers ops p answer) (hnamed : ∀ k ∈ ks, k.IsNamed)
    (hs : M.Settled p answer (fun _ => none) (fun _ => False) s) :
    ∃ base, Places ks handles base ∧ M.Settled p answer base (fun _ => False) s' := by
  refine h.exists_places (fun base s => M.Settled p answer base (fun _ => False) s)
    Settled.initial Settled.of_rests (fun {base handle s s'} k hk hs hnew hpasses => ?_) hs
  have hs' := hs.of_passes hp (hnamed k hk)
    (fun k' hk' => absurd (hnew.symm.trans hk') nofun) hpasses
  exact hs'.mono fun _ hleft => hleft.1

namespace Places

/-- The classes that are placed are proper if those to define are. -/
theorem isProper (hplaces : Places ks handles base) (hproper : ∀ k ∈ ks, k.IsProper ops M)
    (handle : Nat) (k : HostedClass) (hbase : base handle = some k) : k.IsProper ops M := by
  obtain ⟨k', hk', rfl⟩ := hplaces.only hbase
  exact (hproper k' hk').initial

/-- **The forms of the classes** depend on nothing but the classes. -/
theorem map_classes (hplaces : Places ks handles base)
    (hs : M.Settled p answer base (fun _ => False) s) :
    handles.map (M.view s.world).classes = ks.map fun k => some (k.settled answer) := by
  have hmap : handles.map (M.view s.world).classes
      = (handles.map base).map (Option.map fun k => k.settled answer) := by
    rw [hs.classes_eq, List.map_map]
    rfl
  rw [hmap, hplaces.found, List.map_map]
  rfl

/-- So does the record. -/
theorem mem_recordedBy_iff (hplaces : Places ks handles base)
    (hs : M.Settled p answer base (fun _ => False) s) {name : String} :
    name ∈ s.recordedBy p.record
      ↔ ∃ k ∈ ks, (answer (k.request false)).isSome = true ∧ k.name = name := by
  rw [hs.mem_recordedBy_iff]
  constructor
  · rintro ⟨handle, k, hbase, hsome, rfl⟩
    obtain ⟨k', hk', rfl⟩ := hplaces.only hbase
    exact ⟨k', hk', hsome, rfl⟩
  · rintro ⟨k, hk, hsome, rfl⟩
    have hmem : some k.initial ∈ handles.map base := by
      rw [hplaces.found]
      exact List.mem_map_of_mem hk
    obtain ⟨handle, -, hbase⟩ := List.mem_map.1 hmem
    exact ⟨handle, k.initial, hbase, hsome, rfl⟩

end Places

/-- The modules are found, whenever they are asked for, and nothing else happens. -/
def Finds (M : HostModel ε) (modules : Act ε (List Module)) (found : List Module) : Prop :=
  ∀ s, M.valid s.world → ∃ s', modules.run s = (.ok found, s') ∧ M.Rests s s'

end HostModel

/-- When the pipeline is installed, no class is left out that it would rewrite. -/
def Pipeline.LeavesNoneOut (ops : LoaderOps ε) (M : HostModel ε) (p : Pipeline) : Prop :=
  ∀ (k : HostedClass) (handle : Nat) (redefining : Bool) (s s' : Session ε) (out : Bytes),
    M.valid s.world → k.IsProper ops M →
    (p.transform ops (k.request redefining)).run s = (.ok (some out), s') →
    ∀ t : Session ε, ∃ t', (p.mayTransform ops (k.listed handle)).run t = (.ok true, t')

/-- A pipeline that answers the same for every class leaves none out that it would weave. -/
theorem HostModel.Answers.leavesNoneOut (hp : M.Answers ops p answer) : p.LeavesNoneOut ops M := by
  intro k handle redefining s s' out hvalid hproper hrun t
  obtain ⟨s₁, hall, -⟩ := hp.run k redefining s hvalid hproper.named
  have hout : answer (k.request false) = some out :=
    Except.ok.inj (Prod.mk.inj (hall.symm.trans (transformAll_pipeline hrun))).1
  have hsome : (answer (k.request false)).isSome = true := by
    rw [hout]
    rfl
  obtain ⟨t', hmay, -⟩ :=
    hp.eligible handle s hvalid hproper hsome (fun _ => True) (fun _ _ _ => trivial) t trivial
  exact ⟨t', hmay⟩

namespace Agent

open AgentAct HostModel

variable {tracer : Tracer} {modules : Act ε (List Module)} {found : List Module}
  {jar : Option String} {a : Agent}

/-- **Classes that are there when an agent is initialized** settle. -/
theorem exists_run_initializeWith (hhost : HostContract ops hosts h M)
    (hwilling : hosts.Willing ops h M) (hops : ops.Reliable M.valid)
    (hfound : M.Finds modules found)
    (hanswers : ∀ record, M.Answers ops (Pipeline.ofModules tracer found record) answer)
    (hproper : ∀ handle k, base handle = some k → k.IsProper ops M) (ha : a.installed = none)
    (hs : M.Idle base s) (jar : Option String) :
    ∃ record s', (initializeWith ops hosts tracer h jar modules).runFrom a s
        = ((.ok (.ok ()), ⟨some ⟨h, Pipeline.ofModules tracer found record⟩, jar⟩), s')
      ∧ M.Settled (Pipeline.ofModules tracer found record) answer base (fun _ => False) s' := by
  obtain ⟨s₁, hmodules, hrests⟩ := hfound s hs.valid
  obtain ⟨journal, hbuild⟩ :
      ∃ journal, (buildAndInstall ops hosts tracer h modules).run s = _ :=
    exists_run_buildAndInstall hmodules
  have hidle : M.Idle base { s₁ with journal, records := s₁.records.push [] } :=
    (hs.of_rests hrests).of_world_eq rfl
  have hrecord : s₁.records.size < (s₁.records.push []).size := by
    rw [Array.size_push]
    exact Nat.lt_succ_self _
  have hempty : Session.recordedBy { s₁ with journal, records := s₁.records.push [] }
      s₁.records.size = [] := by
    rw [Session.recordedBy, Array.getElem?_push_size]
    rfl
  have hcalm : (Pipeline.ofModules tracer found s₁.records.size).ignore.Calm ops :=
    Pipeline.calm_ofModules tracer found _
  obtain ⟨result, s', hinstall, rfl, hs'⟩ := Pipeline.returns_installOn_settled hhost hwilling hops
    hcalm (hanswers s₁.records.size) hproper { s₁ with journal, records := s₁.records.push [] }
    ⟨hidle, hrecord, hempty⟩
  refine ⟨s₁.records.size, s', ?_, hs'⟩
  rw [runFrom_initializeWith]
  refine (runFrom_initInstrumentation_of_none (a := { a with jar }) ha).trans ?_
  rw [hbuild, hinstall]

variable (tracer jar) in
/-- **Loading order does not matter.** On a willing host that has neither transformers nor classes,
let classes be defined and then an agent be initialized; or let the agent be initialized, and then the
classes be defined. Both times the agent comes to have a pipeline, every class has the same form in the
end, and the records of the two pipelines have the same names. When a pipeline is installed, no class
is left out that it would rewrite. -/
theorem initialize_commutes (hhost : HostContract ops hosts h M)
    (hwilling : hosts.Willing ops h M) (hops : ops.Reliable M.valid)
    (hfound : M.Finds modules found) (hsteady : ∀ m ∈ found, m.types.IsSteady fun _ => True)
    (ha : a.installed = none) (hvalid : M.valid s.world)
    (hempty : M.view s.world = ⟨[], fun _ => none⟩) (hproper : ∀ k ∈ ks, k.IsProper ops M)
    (hdefines : M.DefinesAll ops ks handles s s₁) :
    ∃ (p q : Pipeline) (s₂ s₃ : Session ε) (form : HostedClass → Bytes),
      (initializeWith ops hosts tracer h jar modules).runFrom a s₁
        = ((.ok (.ok ()), ⟨some ⟨h, p⟩, jar⟩), s₂)
      ∧ (initializeWith ops hosts tracer h jar modules).runFrom a s
        = ((.ok (.ok ()), ⟨some ⟨h, q⟩, jar⟩), s₃)
      ∧ handles.map (M.view s₂.world).classes = ks.map (fun k => some { k with current := form k })
      ∧ (∀ handles' s₄, M.DefinesAll ops ks handles' s₃ s₄ →
        handles'.map (M.view s₄.world).classes = ks.map (fun k => some { k with current := form k })
          ∧ ∀ name, name ∈ s₄.recordedBy q.record ↔ name ∈ s₂.recordedBy p.record)
      ∧ p.LeavesNoneOut ops M ∧ q.LeavesNoneOut ops M := by
  obtain ⟨answer, hanswers⟩ : ∃ answer, ∀ record,
      M.Answers ops (Pipeline.ofModules tracer found record) answer :=
    exists_answers hhost hops (Pipeline.calm_ofModules tracer found 0)
      (Pipeline.forall_rules_ofModules hsteady)
  have hidle : M.Idle (fun _ => none) s := ⟨hvalid, hempty, by rw [hempty]; rfl⟩
  -- the classes first
  obtain ⟨base, hplaces, hidle₁⟩ := hdefines.exists_idle hidle
  obtain ⟨record, s₂, hfirst, hs₂⟩ := exists_run_initializeWith hhost hwilling hops hfound hanswers
    (hplaces.isProper hproper) ha hidle₁ jar
  -- the agent first
  have hnone (handle : Nat) (k : HostedClass) (hbase : (fun _ => none) handle = some k) :
      k.IsProper ops M := by
    cases hbase
  obtain ⟨record', s₃, hlast, hs₃⟩ := exists_run_initializeWith hhost hwilling hops hfound hanswers
    hnone ha hidle jar
  refine ⟨_, _, s₂, s₃, fun k => (answer (k.request false)).getD k.original, hfirst, hlast,
    hplaces.map_classes hs₂, fun handles' s₄ hdefines' => ?_, (hanswers record).leavesNoneOut,
    (hanswers record').leavesNoneOut⟩
  obtain ⟨base', hplaces', hs₄⟩ :=
    hdefines'.exists_settled (hanswers record') (fun k hk => (hproper k hk).named) hs₃
  refine ⟨hplaces'.map_classes hs₄, fun name => ?_⟩
  rw [hplaces'.mem_recordedBy_iff hs₄, hplaces.mem_recordedBy_iff hs₂]

/-- An agent on a host in memory, initialized with the sample module. -/
def initializeSample : AgentAct MemoryHost (Except AgentError Unit) :=
  initializeWith MemoryHost.loaderOps MemoryHost.hostOps ⟨.default, default⟩ 0 none
    (return [sampleModule])

/-- The class `A`, defined on a host in memory. -/
def defineSample : Act MemoryHost MemoryClass :=
  MemoryHost.define "A" none ClassFile.idle true

/-- Whether the class is woven by the module if it is defined on a host that has the module already. -/
def sampleCommutes : Bool :=
  match defineSample.run (.start (.new #[])), initializeSample.runFrom .new (.start (.new #[])) with
  | (.ok _, _), ((.ok (.ok ()), _), s₃) => match defineSample.run s₃ with
    | (.ok c', _) => c'.isChanged && s₃.world.classes.size == 0 && s₃.world.loaders.size == 0
      && s₃.world.faults == .none
    | _ => false
  | _, _ => false

/-- The class is woven by the module, whether it was there before the module or not. -/
theorem initialize_commutes_sample :
    ∃ (p q : Pipeline) (s₁ s₂ s₃ s₄ : Session MemoryHost) (c c' : MemoryClass),
      defineSample.run (.start (.new #[])) = (.ok c, s₁)
      ∧ initializeSample.runFrom .new s₁ = ((.ok (.ok ()), ⟨some ⟨0, p⟩, none⟩), s₂)
      ∧ initializeSample.runFrom .new (.start (.new #[]))
        = ((.ok (.ok ()), ⟨some ⟨0, q⟩, none⟩), s₃)
      ∧ defineSample.run s₃ = (.ok c', s₄) ∧ c'.isChanged = true
      ∧ ((MemoryHost.model #[] .none).view s₂.world).classes 0
        = ((MemoryHost.model #[] .none).view s₄.world).classes 0
      ∧ ∀ name, name ∈ s₄.recordedBy q.record ↔ name ∈ s₂.recordedBy p.record := by
  have hcheck : sampleCommutes = true := by
    decide +kernel
  unfold sampleCommutes at hcheck
  split at hcheck
  case h_2 => cases hcheck
  next c s₁ a' s₃ hdefine hinit =>
  split at hcheck
  case h_2 => cases hcheck
  next c' s₄ hdefine' =>
  simp only [Bool.and_eq_true, beq_iff_eq] at hcheck
  obtain ⟨⟨⟨hchanged, hsize⟩, hloaders⟩, hfaults⟩ := hcheck
  have hproper : ∀ k ∈ [MemoryHost.hosted (.new #[]) ⟨"A", none, ClassFile.idle, ClassFile.idle, true⟩],
      k.IsProper MemoryHost.loaderOps (MemoryHost.model #[] .none) := by
    intro k hk
    obtain rfl := List.mem_singleton.1 hk
    exact MemoryHost.isProper_hosted ⟨rfl, rfl⟩ rfl MemoryHost.name_of_read_idle
  have hsteady : ∀ m ∈ [sampleModule], m.types.IsSteady fun _ => True := by
    intro m hm
    obtain rfl := List.mem_singleton.1 hm
    exact trivial
  obtain ⟨p, q, s₂, s₃', form, hfirst, hlast, hclasses, hsame, -⟩ := initialize_commutes
    ⟨.default, default⟩ none (MemoryHost.hostContract rfl 0) (MemoryHost.willing rfl rfl 0)
    (MemoryHost.reliable_loaderOps fun _ hvalid => hvalid.1)
    (fun s hvalid => ⟨s, rfl, hvalid, rfl, rfl⟩) hsteady
    (rfl : Agent.new.installed = none) ⟨rfl, rfl⟩ rfl hproper
    (MemoryHost.definesAll_of_define ⟨rfl, rfl⟩ hdefine)
  obtain ⟨-, rfl⟩ := Prod.mk.inj (hinit.symm.trans hlast)
  have hvalid : (MemoryHost.model #[] .none).valid s₃.world :=
    ⟨Array.eq_empty_of_size_eq_zero hloaders, hfaults⟩
  obtain ⟨hclasses', hrecords⟩ :=
    hsame [s₃.world.classes.size] s₄ (MemoryHost.definesAll_of_define hvalid hdefine')
  rw [hsize] at hclasses'
  refine ⟨p, q, s₁, s₂, s₃, s₄, c, c', hdefine, hfirst, hlast, hdefine', hchanged, ?_, hrecords⟩
  exact (List.cons.inj (hclasses.trans hclasses'.symm)).1

end Agent

end AdviceWeaver

import Mathlib.Logic.Relation
import AdviceWeaver.Proofs.Agent.Calls
import AdviceWeaver.Proofs.Hosting.Registry

/-!
# What an agent has registered

An agent and the hosts that it is told to work on agree at all times: if it has a pipeline, then this
is the only transformer of the agent that is registered anywhere, and if it has none, then none of its
transformers is.

Which transformers are the agent's own is told by those that are not. Others register theirs and take
them out again between the calls of the agent (`Scene.Step`), and that is accounted for apart from the
hosts (`Scene.others`).

## Main results

* `Call.exists_does` — every call returns, in one of a few ways.
* `Scene.Agrees.step` — the agent and the hosts go on to agree.
* `Scene.calls_agree` — what the calls of a whole run do.
-/

namespace AdviceWeaver

open Act

variable {ε : Type} {ops : LoaderOps ε} {hosts : HostOps ε} {registered : ε → Registry} {h : HostId}

/-! ### Building pipelines -/

namespace Agent

/-- **A new pipeline** has a record of its own, and it is registered if it is the answer. -/
theorem returns_buildAndInstall (hhosts : hosts.Registers registered) (tracer : Tracer)
    {r : Registry} {count : Nat} (hknown : ∀ t ∈ r h, t.IsKnown count)
    {modules : Act ε (List Module)}
    (hmodules : Safe (Session.Holds registered r count) modules) :
    Returns (Session.Holds registered r count) (buildAndInstall ops hosts tracer h modules)
      fun answer s => (∃ e, answer = .error e ∧ s.Holds registered r count)
        ∨ ∃ p, answer = .ok p ∧ count ≤ p.record
          ∧ s.Holds registered (r.add h (.pipeline p)) (p.record + 1) := by
  have hdefault : PipelineBuilder.new.ignore.Calm ops := IgnoreRules.calm_default
  intro s hs
  obtain ⟨found, s₁, hfound, hs₁⟩ := hmodules s hs
  obtain ⟨journal, hrun⟩ : ∃ journal, (buildAndInstall ops hosts tracer h modules).run s = _ :=
    exists_run_buildAndInstall hfound
  have hp : count ≤ (Pipeline.ofModules tracer found s₁.records.size).record := hs₁.records
  have hbuilt : { s₁ with journal, records := s₁.records.push [] }.Holds registered r
      (s₁.records.size + 1) := by
    refine ⟨hs₁.registry, ?_⟩
    rw [Array.size_push]
  obtain ⟨answer, s', hinstall, hs'⟩ := Pipeline.returns_installOn hhosts
    (Pipeline.calm_ofModules tracer found _) (fun t ht => (hknown t ht).id_ne hp) _ hbuilt
  rw [hrun, hinstall]
  rcases hs' with ⟨e, rfl, hs'⟩ | ⟨rfl, hs'⟩
  · refine ⟨.error e, s', rfl, .inl ⟨e, rfl, hs'.registry, ?_⟩⟩
    exact (Nat.le_succ_of_le hp).trans hs'.records
  · exact ⟨_, s', rfl, .inr ⟨_, rfl, hp, hs'⟩⟩

end Agent

/-! ### The agent among others -/

/-- The transformer is the pipeline of the agent. -/
def Agent.owns (a : Agent) (t : Transformer) : Bool :=
  a.installed.any fun i => t.id = (Transformer.pipeline i.pipeline).id

/-- What the agent has registered with a host: its pipeline, if that is its host. -/
def Agent.placed (a : Agent) (h : HostId) : List Transformer :=
  match a.installed with
  | some i => if h = i.host then [.pipeline i.pipeline] else []
  | none => []

namespace Agent

variable {a : Agent} {i : Installed}

/-- An agent without a pipeline owns no transformer. -/
theorem owns_of_none (hnone : a.installed = none) (t : Transformer) : a.owns t = false := by
  rw [owns, hnone]
  rfl

/-- An agent owns the transformer that has the identity of its pipeline. -/
theorem owns_of_some (hsome : a.installed = some i) (t : Transformer) :
    a.owns t = decide (t.id = (Transformer.pipeline i.pipeline).id) := by
  rw [owns, hsome]
  rfl

theorem placed_of_none (hnone : a.installed = none) (h : HostId) : a.placed h = [] := by
  rw [placed, hnone]

/-- An agent has its pipeline placed at its own host, and nothing at any other. -/
theorem placed_of_some (hsome : a.installed = some i) (h : HostId) :
    a.placed h = if h = i.host then [.pipeline i.pipeline] else [] := by
  rw [placed, hsome]

end Agent

/-- An agent in its session, and the transformers that others have registered. -/
structure Scene (ε : Type) where
  agent : Agent
  session : Session ε
  others : Registry

/-- **Invariant:** of the transformers that are registered, one is the agent's own if it has a
pipeline, and none if it has not; the rest is what the others have registered, in their order. -/
structure Scene.Agrees (registered : ε → Registry) (x : Scene ε) : Prop where
  own (h : HostId) : (registered x.session.world h).filter x.agent.owns = x.agent.placed h
  rest (h : HostId) :
    (registered x.session.world h).filter (fun t => !x.agent.owns t) = x.others h
  known (h : HostId) : ∀ t ∈ registered x.session.world h, t.IsKnown x.session.records.size

/-! ### Calls -/

/-- A call of an agent. -/
inductive Call (ε : Type) where
  | initializeWith (tracer : Tracer) (h : HostId) (jar : Option String)
      (modules : Act ε (List Module))
  | initInstrumentation (tracer : Tracer) (h : HostId) (modules : Act ε (List Module))
  | reset

namespace Call

/-- What the agent does. -/
def act (ops : LoaderOps ε) (hosts : HostOps ε) : Call ε → AgentAct ε (Except AgentError Unit)
  | initializeWith tracer h jar modules => Agent.initializeWith ops hosts tracer h jar modules
  | initInstrumentation tracer h modules => Agent.initInstrumentation ops hosts tracer h modules
  | reset => Agent.reset hosts

/-- The host on which the agent is to be initialized. -/
def host? : Call ε → Option HostId
  | initializeWith _ h _ _ => some h
  | initInstrumentation _ h _ => some h
  | reset => none

/-- The modules can be found without a trace in the registry. -/
def IsFair (registered : ε → Registry) : Call ε → Prop
  | initializeWith _ _ _ modules => ∀ r count, Safe (Session.Holds registered r count) modules
  | initInstrumentation _ _ modules => ∀ r count, Safe (Session.Holds registered r count) modules
  | reset => True

/-- The ways in which a call returns, with its answer, the agent and the session that it leaves. -/
inductive Does (registered : ε → Registry) (x : Scene ε) :
    Call ε → Except AgentError Unit → Agent → Session ε → Prop
  /-- An agent that has a pipeline keeps it. -/
  | again {c : Call ε} {h : HostId} {a' : Agent} {s' : Session ε} (hc : c.host? = some h)
      (hinitialized : x.agent.isInitialized = true) (hinstalled : a'.installed = x.agent.installed)
      (hs' : s'.Holds registered (registered x.session.world) x.session.records.size) :
      Does registered x c (.ok ()) a' s'
  | built {c : Call ε} {h : HostId} {a' : Agent} {s' : Session ε} {p : Pipeline}
      (hc : c.host? = some h) (hnone : x.agent.installed = none)
      (hinstalled : a'.installed = some ⟨h, p⟩) (hnew : x.session.records.size ≤ p.record)
      (hs' : s'.Holds registered ((registered x.session.world).add h (.pipeline p))
        (p.record + 1)) :
      Does registered x c (.ok ()) a' s'
  | refused {c : Call ε} {h : HostId} {a' : Agent} {s' : Session ε} {e : AgentError}
      (hc : c.host? = some h) (hnone : x.agent.installed = none) (hinstalled : a'.installed = none)
      (hs' : s'.Holds registered (registered x.session.world) x.session.records.size) :
      Does registered x c (.error e) a' s'
  | removed {i : Installed} {answer : Except AgentError Unit} {a' : Agent} {s' : Session ε}
      (hsome : x.agent.installed = some i) (hinstalled : a'.installed = none)
      (hs' : s'.Holds registered ((registered x.session.world).remove i.host (.pipeline i.pipeline))
        x.session.records.size) :
      Does registered x .reset answer a' s'
  | absent (hnone : x.agent.installed = none) :
      Does registered x .reset (.error (.illegalState "Reset was called before init")) x.agent
        x.session

/-- **Initializing** warns, is refused, or adds a fresh pipeline to the host of the call. -/
theorem exists_does_initInstrumentation (hhosts : hosts.Registers registered) {x : Scene ε}
    (hx : x.Agrees registered) {a : Agent} (ha : a.installed = x.agent.installed) (tracer : Tracer)
    {modules : Act ε (List Module)}
    (hmodules : ∀ r count, Safe (Session.Holds registered r count) modules) {c : Call ε}
    (hc : c.host? = some h) :
    ∃ answer a' s', (Agent.initInstrumentation ops hosts tracer h modules).runFrom a x.session
      = ((.ok answer, a'), s') ∧ Does registered x c answer a' s' := by
  by_cases hinitialized : x.agent.isInitialized = true
  · refine ⟨_, _, _, Agent.runFrom_initInstrumentation_of_some ?_, .again hc hinitialized ha ?_⟩
    · rw [Agent.isInitialized, ha]
      exact hinitialized
    · exact Session.Holds.journal _ _ (.refl registered x.session)
  · have hnone : x.agent.installed = none := Option.not_isSome_iff_eq_none.1 hinitialized
    rw [Agent.runFrom_initInstrumentation_of_none (ha.trans hnone)]
    obtain ⟨answer, s', hbuild, hs'⟩ := Agent.returns_buildAndInstall hhosts tracer (hx.known h)
      (hmodules _ _) x.session (.refl registered x.session)
    rw [hbuild]
    rcases hs' with ⟨e, rfl, hs'⟩ | ⟨p, rfl, hnew, hs'⟩
    · exact ⟨_, _, _, rfl, .refused hc hnone (ha.trans hnone) hs'⟩
    · exact ⟨_, _, _, rfl, .built hc hnone rfl hnew hs'⟩

/-- **Every call returns**, whatever the hosts answer. -/
theorem exists_does (hhosts : hosts.Registers registered) {x : Scene ε} (hx : x.Agrees registered)
    {c : Call ε} (hc : c.IsFair registered) :
    ∃ answer a' s', (c.act ops hosts).runFrom x.agent x.session = ((.ok answer, a'), s')
      ∧ Does registered x c answer a' s' := by
  cases c with
  | initializeWith tracer h jar modules =>
    obtain ⟨answer, a', s', hrun, hdoes⟩ : ∃ answer a' s',
        (Agent.initInstrumentation ops hosts tracer h modules).runFrom { x.agent with jar } x.session
          = ((.ok answer, a'), s')
        ∧ Does registered x (.initializeWith tracer h jar modules) answer a' s' :=
      exists_does_initInstrumentation (a := { x.agent with jar }) hhosts hx rfl tracer hc rfl
    exact ⟨answer, a', s', Agent.runFrom_initializeWith.trans hrun, hdoes⟩
  | initInstrumentation tracer h modules =>
    exact exists_does_initInstrumentation hhosts hx rfl tracer hc rfl
  | reset =>
    cases hinstalled : x.agent.installed with
    | none => exact ⟨_, _, _, Agent.runFrom_reset_of_none hinstalled, .absent hinstalled⟩
    | some i =>
      obtain ⟨answer, s', hreset, hs'⟩ := Pipeline.returns_resetOn hhosts x.session
        (Session.Holds.refl registered x.session)
      dsimp only [act]
      rw [Agent.runFrom_reset_of_some hinstalled, hreset]
      rcases answer with e | restored
      · exact ⟨_, _, _, rfl, .removed hinstalled rfl hs'⟩
      · exact ⟨_, _, _, rfl, .removed hinstalled rfl (.journal _ _ hs')⟩

/-- A call that returned did so in one of these ways. -/
theorem does_of_run (hhosts : hosts.Registers registered) {x : Scene ε} (hx : x.Agrees registered)
    {c : Call ε} (hc : c.IsFair registered) {answer : Except AgentError Unit} {a' : Agent}
    {s' : Session ε}
    (hrun : (c.act ops hosts).runFrom x.agent x.session = ((.ok answer, a'), s')) :
    Does registered x c answer a' s' := by
  obtain ⟨answer₁, a₁, s₁, hrun₁, hdoes⟩ : ∃ answer a' s',
      (c.act ops hosts).runFrom x.agent x.session = ((.ok answer, a'), s')
        ∧ Does registered x c answer a' s' := exists_does hhosts hx hc
  rw [hrun₁] at hrun
  cases hrun
  exact hdoes

/-- Records are never given back. -/
theorem Does.records_le {x : Scene ε} {c : Call ε} {answer : Except AgentError Unit} {a' : Agent}
    {s' : Session ε} (hdoes : Does registered x c answer a' s') :
    x.session.records.size ≤ s'.records.size := by
  cases hdoes with
  | again _ _ _ hs' => exact hs'.records
  | built _ _ _ hnew hs' => exact hnew.trans (Nat.le_of_succ_le hs'.records)
  | refused _ _ _ hs' => exact hs'.records
  | removed _ _ hs' => exact hs'.records
  | absent => exact Nat.le_refl _

end Call

/-! ### Agreement -/

namespace Scene

variable {x y : Scene ε}

namespace Agrees

/-- An agent without a pipeline has nothing registered. -/
theorem registry_eq (hx : x.Agrees registered) (hnone : x.agent.installed = none) :
    registered x.session.world = x.others := by
  funext h
  rw [← hx.rest h, eq_comm, List.filter_eq_self]
  intro t _
  rw [Agent.owns_of_none hnone]
  rfl

/-- A scene without a pipeline agrees if all that is registered is what the others did. -/
theorem of_none {x : Scene ε} (hnone : x.agent.installed = none)
    (hregistry : registered x.session.world = x.others)
    (hknown : ∀ h, ∀ t ∈ x.others h, t.IsKnown x.session.records.size) : x.Agrees registered := by
  refine ⟨fun h => ?_, fun h => ?_, fun h => ?_⟩
  · rw [Agent.placed_of_none hnone, List.filter_eq_nil_iff]
    intro t _
    rw [Agent.owns_of_none hnone]
    exact Bool.false_ne_true
  · rw [hregistry, List.filter_eq_self]
    intro t _
    rw [Agent.owns_of_none hnone]
    rfl
  · rw [hregistry]
    exact hknown h

/-- Without its pipeline, there remains what the others have registered. -/
theorem remove_eq (hx : x.Agrees registered) {i : Installed} (hsome : x.agent.installed = some i) :
    (registered x.session.world).remove i.host (.pipeline i.pipeline) = x.others := by
  funext h
  rw [Registry.remove_apply, ← hx.rest h]
  simp only [Agent.owns_of_some hsome]
  split
  · next heq => simp
  · next hne =>
    have hown := hx.own h
    rw [Agent.placed_of_some hsome, if_neg hne, List.filter_eq_nil_iff] at hown
    rw [eq_comm, List.filter_eq_self]
    intro t ht
    have hforeign := hown t ht
    rw [Agent.owns_of_some hsome] at hforeign
    simpa using hforeign

/-- What the others have registered is known. -/
theorem known_others (hx : x.Agrees registered) (h : HostId) {t : Transformer}
    (ht : t ∈ x.others h) : t.IsKnown x.session.records.size := by
  rw [← hx.rest h] at ht
  exact hx.known h t (List.mem_filter.1 ht).1

/-- The pipeline of an agent has one of the records that there are. -/
theorem record_lt (hx : x.Agrees registered) {i : Installed}
    (hsome : x.agent.installed = some i) : i.pipeline.record < x.session.records.size := by
  have hmem : .pipeline i.pipeline ∈ x.agent.placed i.host := by
    rw [Agent.placed_of_some hsome, if_pos rfl]
    exact List.mem_singleton_self _
  rw [← hx.own] at hmem
  exact hx.known i.host _ (List.mem_filter.1 hmem).1

/-- Nothing happens to the registry. -/
theorem of_holds (hx : x.Agrees registered) {a' : Agent} {s' : Session ε}
    (ha' : a'.installed = x.agent.installed)
    (hs' : s'.Holds registered (registered x.session.world) x.session.records.size) :
    Agrees registered ⟨a', s', x.others⟩ := by
  have howns : a'.owns = x.agent.owns := by
    funext t
    rw [Agent.owns, ha']
    rfl
  have hplaced : a'.placed = x.agent.placed := by
    funext h
    rw [Agent.placed, ha']
    rfl
  refine ⟨fun h => ?_, fun h => ?_, fun h t ht => ?_⟩
  · dsimp only
    rw [hs'.registry, howns, hplaced]
    exact hx.own h
  · dsimp only
    rw [hs'.registry, howns]
    exact hx.rest h
  · dsimp only at ht
    rw [hs'.registry] at ht
    exact (hx.known h t ht).mono hs'.records

/-- A new pipeline is told from all that the others have registered. -/
theorem of_built (hx : x.Agrees registered) (hnone : x.agent.installed = none) {p : Pipeline}
    (hnew : x.session.records.size ≤ p.record) {a' : Agent} {s' : Session ε}
    (ha' : a'.installed = some ⟨h, p⟩)
    (hs' : s'.Holds registered ((registered x.session.world).add h (.pipeline p)) (p.record + 1)) :
    Agrees registered ⟨a', s', x.others⟩ := by
  have hforeign (h' : HostId) (t : Transformer) (ht : t ∈ x.others h') : a'.owns t = false := by
    rw [Agent.owns_of_some ha', decide_eq_false_iff_not]
    exact (hx.known_others h' ht).id_ne hnew
  have hp : a'.owns (.pipeline p) = true := by
    rw [Agent.owns_of_some ha', decide_eq_true_eq]
  have hregistry (h' : HostId) : registered s'.world h'
      = x.others h' ++ if h' = h then [.pipeline p] else [] := by
    rw [hs'.registry, hx.registry_eq hnone, Registry.add_apply]
  refine ⟨fun h' => ?_, fun h' => ?_, fun h' t ht => ?_⟩
  · have hothers : (x.others h').filter a'.owns = [] := by
      rw [List.filter_eq_nil_iff]
      intro t ht
      rw [hforeign h' t ht]
      exact Bool.false_ne_true
    dsimp only
    rw [hregistry, List.filter_append, hothers, Agent.placed_of_some ha', List.nil_append]
    split
    · rw [List.filter_cons_of_pos hp, List.filter_nil]
    · rfl
  · have hothers : (x.others h').filter (fun t => !a'.owns t) = x.others h' := by
      rw [List.filter_eq_self]
      intro t ht
      rw [hforeign h' t ht]
      rfl
    dsimp only
    rw [hregistry, List.filter_append, hothers]
    split
    · simp [hp]
    · exact List.append_nil _
  · dsimp only at ht
    have hrecords : x.session.records.size ≤ s'.records.size :=
      hnew.trans (Nat.le_of_succ_le hs'.records)
    rw [hregistry, List.mem_append] at ht
    rcases ht with ht | ht
    · exact (hx.known_others h' ht).mono hrecords
    · split at ht
      · rw [List.mem_singleton.1 ht]
        exact Nat.lt_of_succ_le hs'.records
      · cases ht

/-- **A call** leaves an agent that agrees with the hosts. -/
theorem of_does (hx : x.Agrees registered) {c : Call ε} {answer : Except AgentError Unit}
    {a' : Agent} {s' : Session ε} (hdoes : c.Does registered x answer a' s') :
    Agrees registered ⟨a', s', x.others⟩ := by
  cases hdoes with
  | again _ _ ha' hs' => exact hx.of_holds ha' hs'
  | built _ hnone ha' hnew hs' => exact hx.of_built hnone hnew ha' hs'
  | refused _ hnone ha' hs' => exact hx.of_holds (ha'.trans hnone.symm) hs'
  | removed hsome ha' hs' =>
    rw [hx.remove_eq hsome] at hs'
    refine of_none ha' hs'.registry fun h t ht => ?_
    exact (hx.known_others h ht).mono hs'.records
  | absent hnone => exact hx

/-- Others register a transformer. -/
theorem of_add (hx : x.Agrees registered) {t : Transformer} (hforeign : x.agent.owns t = false)
    (hknown : t.IsKnown x.session.records.size) {s' : Session ε}
    (hs' : s'.Holds registered ((registered x.session.world).add h t) x.session.records.size) :
    Agrees registered ⟨x.agent, s', x.others.add h t⟩ := by
  refine ⟨fun h' => ?_, fun h' => ?_, fun h' u hu => ?_⟩
  · dsimp only
    rw [hs'.registry, Registry.add_apply, List.filter_append, hx.own]
    split
    · simp [hforeign]
    · exact List.append_nil _
  · dsimp only
    rw [hs'.registry, Registry.add_apply, Registry.add_apply, List.filter_append, hx.rest]
    split
    · simp [hforeign]
    · rfl
  · dsimp only at hu
    rw [hs'.registry, Registry.add_apply, List.mem_append] at hu
    rcases hu with hu | hu
    · exact (hx.known h' u hu).mono hs'.records
    · split at hu
      · rw [List.mem_singleton.1 hu]
        exact hknown.mono hs'.records
      · cases hu

/-- Others take out a transformer. -/
theorem of_remove (hx : x.Agrees registered) {t : Transformer} (hforeign : x.agent.owns t = false)
    {s' : Session ε}
    (hs' : s'.Holds registered ((registered x.session.world).remove h t) x.session.records.size) :
    Agrees registered ⟨x.agent, s', x.others.remove h t⟩ := by
  have hown (u : Transformer) (hu : x.agent.owns u = true) : u.id ≠ t.id := by
    intro heq
    rw [Agent.owns, heq] at hu
    exact Bool.noConfusion (hforeign.symm.trans hu)
  refine ⟨fun h' => ?_, fun h' => ?_, fun h' u hu => ?_⟩
  · rw [← hx.own h']
    dsimp only
    rw [hs'.registry, Registry.remove_apply]
    split
    · rw [List.filter_filter]
      refine List.filter_congr fun u _ => ?_
      by_cases hu : x.agent.owns u = true
      · simp [hu, hown u hu]
      · simp [hu]
    · rfl
  · dsimp only
    rw [hs'.registry, Registry.remove_apply, Registry.remove_apply, ← hx.rest]
    split
    · rw [List.filter_filter, List.filter_filter]
      exact List.filter_congr fun u _ => Bool.and_comm _ _
    · rfl
  · dsimp only at hu
    rw [hs'.registry, Registry.remove_apply] at hu
    refine (hx.known h' u ?_).mono hs'.records
    split at hu
    · exact (List.mem_filter.1 hu).1
    · exact hu

end Agrees

/-! ### Runs -/

/-- What may happen next: the agent is called, others register a transformer that is known and is not
the agent's, or take one of theirs out, or something else goes on. -/
inductive Step (ops : LoaderOps ε) (hosts : HostOps ε) (registered : ε → Registry) :
    Scene ε → Scene ε → Prop
  | call {x : Scene ε} {c : Call ε} {answer : Except AgentError Unit} {a' : Agent} {s' : Session ε}
      (hc : c.IsFair registered)
      (hrun : (c.act ops hosts).runFrom x.agent x.session = ((.ok answer, a'), s')) :
      Step ops hosts registered x ⟨a', s', x.others⟩
  | add {x : Scene ε} {h : HostId} {t : Transformer} {s' : Session ε}
      (hforeign : x.agent.owns t = false) (hknown : t.IsKnown x.session.records.size)
      (hrun : (hosts.addTransformer h t).run x.session = (.ok (), s')) :
      Step ops hosts registered x ⟨x.agent, s', x.others.add h t⟩
  | remove {x : Scene ε} {h : HostId} {t : Transformer} {found : Bool} {s' : Session ε}
      (hforeign : x.agent.owns t = false)
      (hrun : (hosts.removeTransformer h t).run x.session = (.ok found, s')) :
      Step ops hosts registered x ⟨x.agent, s', x.others.remove h t⟩
  | other {x : Scene ε} {s' : Session ε}
      (hs' : s'.Holds registered (registered x.session.world) x.session.records.size) :
      Step ops hosts registered x ⟨x.agent, s', x.others⟩

section Runs

variable (hhosts : hosts.Registers registered)
include hhosts

/-- **Each step** keeps the agreement, and no record is given back. -/
theorem Agrees.step (hx : x.Agrees registered) (hstep : Step ops hosts registered x y) :
    y.Agrees registered ∧ x.session.records.size ≤ y.session.records.size := by
  cases hstep with
  | call hc hrun =>
    have hdoes := Call.does_of_run hhosts hx hc hrun
    exact ⟨hx.of_does hdoes, hdoes.records_le⟩
  | add hforeign hknown hrun =>
    have hs' := (hhosts.addTransformer _ _ _ _).ensures x.session (.refl registered _) _ _ hrun
    exact ⟨hx.of_add hforeign hknown hs', hs'.records⟩
  | remove hforeign hrun =>
    have hs' := (hhosts.removeTransformer _ _ _ _).ensures x.session (.refl registered _) _ _ hrun
    exact ⟨hx.of_remove hforeign hs', hs'.records⟩
  | other hs' => exact ⟨hx.of_holds rfl hs', hs'.records⟩

/-- Whole runs keep the agreement. -/
theorem Agrees.steps (hx : x.Agrees registered)
    (hsteps : Relation.ReflTransGen (Step ops hosts registered) x y) :
    y.Agrees registered ∧ x.session.records.size ≤ y.session.records.size := by
  induction hsteps with
  | refl => exact ⟨hx, Nat.le_refl _⟩
  | tail _ hstep ih =>
    obtain ⟨hy, hrecords⟩ := ih.1.step hhosts hstep
    exact ⟨hy, ih.2.trans hrecords⟩

/-- **Agent and hosts never disagree** about what is registered. In a run that starts in agreement,
every call of the agent returns, and afterwards they agree. A call that refuses to initialize the agent
leaves it without a pipeline, and the registry as it was. After a reset there is no pipeline, whatever
the answer; one that comes too early changes nothing. A call that initializes the agent anew gives it a
pipeline that it never had before. -/
theorem calls_agree {start : Scene ε} (hstart : start.Agrees registered)
    (hsteps : Relation.ReflTransGen (Step ops hosts registered) start x) (c : Call ε)
    (hc : c.IsFair registered) :
    ∃ answer a' s', (c.act ops hosts).runFrom x.agent x.session = ((.ok answer, a'), s')
      ∧ Agrees registered ⟨a', s', x.others⟩
      ∧ (∀ h e, c.host? = some h → answer = .error e →
          a'.installed = none ∧ registered s'.world = registered x.session.world)
      ∧ (c = .reset → a'.installed = none)
      ∧ (c = .reset → x.agent.installed = none →
          answer = .error (.illegalState "Reset was called before init")
            ∧ a' = x.agent ∧ s' = x.session)
      ∧ (∀ h, c.host? = some h → x.agent.installed = none → answer = .ok () →
          ∃ p, a'.installed = some ⟨h, p⟩
            ∧ ∀ y i, Relation.ReflTransGen (Step ops hosts registered) start y →
              Relation.ReflTransGen (Step ops hosts registered) y x → y.agent.installed = some i →
              i.pipeline.record ≠ p.record) := by
  obtain ⟨hx, -⟩ := hstart.steps hhosts hsteps
  obtain ⟨answer, a', s', hrun, hdoes⟩ : ∃ answer a' s',
      (c.act ops hosts).runFrom x.agent x.session = ((.ok answer, a'), s')
        ∧ c.Does registered x answer a' s' := Call.exists_does hhosts hx hc
  refine ⟨answer, a', s', hrun, hx.of_does hdoes, ?_⟩
  cases hdoes with
  | again hc' hinitialized ha' hs' =>
    refine ⟨fun _ _ _ herror => ?_, fun hreset => ?_, fun hreset => ?_, fun _ _ hnone => ?_⟩
    · cases herror
    · rw [hreset] at hc'
      cases hc'
    · rw [hreset] at hc'
      cases hc'
    · rw [Agent.isInitialized, hnone] at hinitialized
      cases hinitialized
  | @built _ _ _ _ p hc' hnone ha' hnew hs' =>
    refine ⟨fun _ _ _ herror => ?_, fun hreset => ?_, fun hreset => ?_, fun h' hhost _ _ => ?_⟩
    · cases herror
    · rw [hreset] at hc'
      cases hc'
    · rw [hreset] at hc'
      cases hc'
    · refine ⟨p, ?_, fun y i hy hyx hsome => ?_⟩
      · rw [ha', Option.some.inj (hc'.symm.trans hhost)]
      -- An earlier pipeline has a record that was there then, and the new record is none of those.
      · obtain ⟨hy, -⟩ := hstart.steps hhosts hy
        obtain ⟨-, hrecords⟩ := hy.steps hhosts hyx
        exact Nat.ne_of_lt ((hy.record_lt hsome).trans_le (hrecords.trans hnew))
  | refused hc' hnone ha' hs' =>
    refine ⟨fun _ _ _ _ => ⟨ha', hs'.registry⟩, fun _ => ha', fun hreset => ?_, fun _ _ _ hok => ?_⟩
    · rw [hreset] at hc'
      cases hc'
    · cases hok
  | removed hsome ha' hs' =>
    refine ⟨fun _ _ hhost => ?_, fun _ => ha', fun _ hnone => ?_, fun _ hhost => ?_⟩
    · cases hhost
    · cases hnone.symm.trans hsome
    · cases hhost
  | absent hnone =>
    refine ⟨fun _ _ hhost => ?_, fun _ => hnone, fun _ _ => ⟨rfl, rfl, rfl⟩, fun _ hhost => ?_⟩
    · cases hhost
    · cases hhost

end Runs

/-- Hosts that are nothing but a registry. Host 1 does not transform classes again, and host 2 does not
list them. -/
def sampleHosts : HostOps Registry where
  addTransformer h t := modifyWorld fun r => r.add h t
  removeTransformer h t := do
    let found := ((← world) h).any fun u => u.id = t.id
    modifyWorld fun r => r.remove h t
    return found
  supportsRetransform h := return h ≠ 1
  loadedClasses h := return if h = 2 then .error (.toolInterface "not now") else .ok []
  retransform _ _ := return .ok ()

/-- Hosts that are nothing but a registry register what they are told to. -/
theorem registers_sampleHosts : sampleHosts.Registers id where
  addTransformer r count h t := by
    rintro s ⟨rfl, hcount⟩
    exact ⟨(), _, rfl, rfl, hcount⟩
  removeTransformer r count h t := by
    rintro s ⟨rfl, hcount⟩
    exact ⟨_, _, rfl, rfl, hcount⟩
  supportsRetransform r count h := (settles_pure _).safe
  loadedClasses r count h := (settles_pure _).safe
  retransform r count h classes := (settles_pure _).safe

/-- No class loaders. -/
def sampleLoaders : LoaderOps Registry where
  describe _ := return .bootstrap
  parent _ := return .ok none
  canLoad _ _ := return .ok false
  classFile _ _ := return .ok none
  release _ := return ()
  load _ := return none
  extent _ _ := 0

/-- A call that initializes an agent on a host, without any modules. -/
def sampleCall (h : HostId) : Call Registry :=
  .initInstrumentation ⟨.default, default⟩ h (return [])

/-- Whether an agent is refused by two hosts and initialized on a third one. -/
def sampleInitializes : Bool :=
  match ((sampleCall 1).act sampleLoaders sampleHosts).runFrom .new (.start fun _ => []) with
  | ((.ok (.error _), a₁), s₁) =>
    match ((sampleCall 2).act sampleLoaders sampleHosts).runFrom a₁ s₁ with
    | ((.ok (.error _), a₂), s₂) =>
      match ((sampleCall 0).act sampleLoaders sampleHosts).runFrom a₂ s₂ with
      | ((.ok (.ok ()), a), _) => a.isInitialized
      | _ => false
    | _ => false
  | _ => false

/-- An agent is refused by two hosts and initialized on a third one. Then it is reset. -/
theorem calls_agree_sample :
    ∃ x, Relation.ReflTransGen (Step sampleLoaders sampleHosts id)
        ⟨.new, .start fun _ => [], fun _ => []⟩ x
      ∧ x.agent.isInitialized = true
      ∧ ∃ answer a' s', (Agent.reset sampleHosts).runFrom x.agent x.session = ((.ok answer, a'), s')
        ∧ a'.installed = none ∧ s'.world = fun _ => [] := by
  have hfair (h : HostId) : (sampleCall h).IsFair id := fun _ _ => (settles_pure _).safe
  have hcheck : sampleInitializes = true := by
    decide +kernel
  unfold sampleInitializes at hcheck
  split at hcheck
  case h_2 => cases hcheck
  next e₁ a₁ s₁ hfirst =>
  split at hcheck
  case h_2 => cases hcheck
  next e₂ a₂ s₂ hsecond =>
  split at hcheck
  case h_2 => cases hcheck
  next a s hthird =>
  have hstart : Agrees id ⟨.new, .start fun _ => [], fun _ => []⟩ := .of_none rfl rfl nofun
  have hsteps : Relation.ReflTransGen (Step sampleLoaders sampleHosts id)
      ⟨.new, .start fun _ => [], fun _ => []⟩ ⟨a, s, fun _ => []⟩ :=
    .tail (.tail (.single (.call (hfair 1) hfirst)) (.call (hfair 2) hsecond))
      (.call (hfair 0) hthird)
  obtain ⟨answer, a', s', hrun, hagrees, -, hnone, -, -⟩ :=
    calls_agree registers_sampleHosts hstart hsteps .reset trivial
  exact ⟨_, hsteps, hcheck, answer, a', s', hrun, hnone rfl, hagrees.registry_eq (hnone rfl)⟩

end Scene

end AdviceWeaver

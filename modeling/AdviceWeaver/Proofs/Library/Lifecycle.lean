import AdviceWeaver.Library.EntryPoints
import AdviceWeaver.Proofs.Agent.Calls
import AdviceWeaver.Proofs.Library.Host

/-!
# The life of the library

The JVM may call the library in any order: it loads it, or attaches it, reports that it has started or
is about to end, and loads classes in between. Whatever it answers in the meantime, the host has exactly
the pipeline registered that the agent has installed (`Library.Ledger.IsMatched`), and a start that waits
is made once at most. The library is discreet while it is loaded and unloaded: it asks for the loaded
classes, and has classes transformed again, only when the JVM has started.

## Main results

* `EntryPoints.safe_tryStart`, `EntryPoints.safe_vmDeath` — starting the instrumentation and restoring
  classes keep host and agent together.
* `EntryPoints.lifecycle` — what holds whatever happened to the library.
-/

namespace AdviceWeaver

open Act Library

variable {allowed : String → Prop} {w₀ : Library} {jvm : Jvm} {l : Ledger} {s s' : Session Library}
  {pending : Option PendingStart} {i : Installed}

/-! ### Host and agent -/

namespace Library

/-- The host has the pipeline registered that the agent has installed, and nothing else. -/
def Ledger.IsMatched (l : Ledger) : Prop :=
  l.transformers.getD [] = (l.agent.installed.map fun i => Transformer.pipeline i.pipeline).toList

/-- Host and agent match, and this start waits. -/
structure Matched (pending : Option PendingStart) (s : Session Library) : Prop where
  matched : s.world.ledger.IsMatched
  pendingStart : s.world.pendingStart = pending

/-- Host and agent match, and there is a host. -/
structure Ready (pending : Option PendingStart) (s : Session Library) : Prop
    extends Matched pending s where
  hosted : s.world.host.isSome = true

/-- Whether host and agent match is told by the ledger alone. -/
theorem Matched.of_ledger (hs : Matched pending s) (h : s'.world.ledger = s.world.ledger) :
    Matched pending s' :=
  ⟨h ▸ hs.matched, (congrArg Ledger.pendingStart h).trans hs.pendingStart⟩

/-- Whether there is a host that matches the agent is told by the ledger alone. -/
theorem Ready.of_ledger (hs : Ready pending s) (h : s'.world.ledger = s.world.ledger) :
    Ready pending s' := by
  refine ⟨hs.toMatched.of_ledger h, ?_⟩
  have hhost : s'.world.host.map ToolHost.transformers = s.world.host.map ToolHost.transformers :=
    congrArg Ledger.transformers h
  rw [← Option.isSome_map (f := ToolHost.transformers), hhost, Option.isSome_map]
  exact hs.hosted

/-- The journal has no part in it. -/
theorem Ready.journal (s : Session Library) (journal : Journal) (hs : Ready pending s) :
    Ready pending { s with journal } :=
  hs.of_ledger rfl

/-- Where a pipeline is installed it is the only transformer of the host. -/
theorem Matched.transformers_of_some (hs : Matched pending s)
    (h : s.world.agent.installed = some i) :
    s.world.ledger.transformers = some [.pipeline i.pipeline] := by
  have hmatched := hs.matched
  rw [Ledger.IsMatched, show s.world.ledger.agent.installed = some i from h] at hmatched
  cases htransformers : s.world.ledger.transformers with
  | none =>
    rw [htransformers] at hmatched
    cases hmatched
  | some ts =>
    rw [htransformers] at hmatched
    exact congrArg some hmatched

/-- Where no pipeline is installed the host has no transformer. -/
theorem Ready.transformers_of_none (hs : Ready pending s) (h : s.world.agent.installed = none) :
    s.world.ledger.transformers = some [] := by
  have hmatched := hs.matched
  obtain ⟨host, hhost⟩ := Option.isSome_iff_exists.1 hs.hosted
  have htransformers : s.world.ledger.transformers = some host.transformers := by
    rw [ledger, hhost]
    rfl
  rw [Ledger.IsMatched, show s.world.ledger.agent.installed = none from h, htransformers] at hmatched
  rw [htransformers]
  exact congrArg some hmatched

/-- Calls of the JVM do not come between host and agent. -/
theorem safe_ready {α : Type} {a : Act Library α}
    (h : ∀ w₀ : Library, Safe (w₀.LeadsTo fun _ => True) a) : Safe (Ready pending) a := by
  intro s hs
  obtain ⟨x, s', hrun, hreach⟩ := h s.world s (Reaches.refl _)
  exact ⟨x, s', hrun, hs.of_ledger hreach.ledger_eq⟩

/-- Calls of the JVM leave host and agent as they are, also if there is no host yet. -/
theorem safe_matched {α : Type} {a : Act Library α}
    (h : ∀ w₀ : Library, Safe (w₀.LeadsTo fun _ => True) a) : Safe (Matched pending) a := by
  intro s hs
  obtain ⟨x, s', hrun, hreach⟩ := h s.world s (Reaches.refl _)
  exact ⟨x, s', hrun, hs.of_ledger hreach.ledger_eq⟩

/-- A host with an empty list of transformers is as good as none. -/
theorem Ledger.IsMatched.hosted (h : l.IsMatched) : l.hosted.IsMatched :=
  h

/-- What acts on the agent of the library acts on a copy of it, which is put back. -/
theorem run_onAgent {α : Type} (a : AgentAct Library α) (s : Session Library) :
    (onAgent a).run s = ((a.runFrom s.world.agent s).1.1,
      { (a.runFrom s.world.agent s).2 with world :=
        { (a.runFrom s.world.agent s).2.world with agent := (a.runFrom s.world.agent s).1.2 } }) :=
  rfl

end Library

namespace EntryPoints

/-! ### Starting -/

section Discreet

variable (hallowed : ∀ line, ToolFunction.Discreet line → allowed line)

/-- The options are told without reaching anywhere: they were given, or are asked of the environment. -/
theorem safe_startupOptions (given : Option Bytes) :
    Safe (w₀.LeadsTo allowed) (startupOptions given) := by
  unfold startupOptions
  dsimp only
  split
  · exact (settles_pure _).safe
  · exact (isWorldly_leadsTo.safe_log _ _ _).bind fun _ => (settles_pure _).safe

include hallowed

/-- The hooks are located without reaching anywhere. -/
theorem safe_hookLocator (jar : Option String) : Safe (w₀.LeadsTo allowed) (hookLocator jar) := by
  cases jar with
  | none => exact (isWorldly_leadsTo.safe_log _ _ _).bind fun _ => (settles_pure _).safe
  | some path =>
    refine (JvmHost.safe_addToBootstrapSearch hallowed _).bind fun answer => ?_
    rcases answer with e | ⟨⟩
    · exact (settles_pure _).safe
    · exact safe_world.bind fun _ => (settles_pure _).safe

/-- An event is enabled within reach, and a failure is only logged. -/
theorem safe_enableEvent (level : Level) (event : Nat) (message : String) :
    Safe (w₀.LeadsTo allowed) (enableEvent level event message) := by
  refine (JvmHost.safe_setEventNotificationMode hallowed true event).bind fun answer => ?_
  rcases answer with code | ⟨⟩
  · exact (ToolInterface.safe_whenKept_describeError hallowed level code message _).bind fun _ =>
      (settles_pure _).safe
  · exact (settles_pure _).safe

/-- Setting the host up succeeds with a host that keeps what is registered, or fails and leaves none. -/
theorem returns_setUpHost (vmInit vmDeath : Option Listener) :
    Returns (Keeps allowed jvm l) (setUpHost vmInit vmDeath) fun done s =>
      (done = false ∧ Keeps allowed jvm l s) ∨ (done = true ∧ Keeps allowed jvm l.hosted s) := by
  refine (JvmHost.returns_install hallowed vmInit vmDeath).bind fun answer => ?_
  rcases answer with e | ⟨⟩
  · intro s hs
    rcases hs with ⟨_, -, hs⟩ | ⟨h, -⟩
    · obtain ⟨⟨⟩, s', hrun, hs'⟩ := safe_log_keeps .error "cannot set up JVMTI"
        [("error", e.message)] s hs
      exact ⟨false, s', run_bind_ok hrun, .inl ⟨rfl, hs'⟩⟩
    · cases h
  · refine returns_pure fun s hs => ?_
    rcases hs with ⟨_, h, -⟩ | ⟨-, hs⟩
    · cases h
    · exact .inr ⟨rfl, hs⟩

/-- **Loading the library** is discreet. If it answers that all went well, a start waits; otherwise what
waited before is still waiting. -/
theorem returns_onLoad (options : Option Bytes) (catalog : CatalogChoice) :
    Returns (Keeps allowed jvm l) (onLoad options catalog) fun answer s =>
      (answer = ok ∧ ∃ start, Keeps allowed jvm { l.hosted with pendingStart := some start } s)
        ∨ (answer = failed ∧ (Keeps allowed jvm l s ∨ Keeps allowed jvm l.hosted s)) := by
  refine (safe_keeps fun _ => safe_startupOptions options).returns.bind fun options => ?_
  cases options with
  | none => exact returns_pure fun s hs => .inr ⟨rfl, .inl hs⟩
  | some options =>
    refine (returns_setUpHost hallowed _ _).bind fun done => ?_
    cases done with
    | false =>
      refine returns_pure fun s hs => .inr ⟨rfl, .inl ?_⟩
      rcases hs with ⟨-, hs⟩ | ⟨h, -⟩
      · exact hs
      · cases h
    | true =>
      have hhosted : ∀ s, (true = false ∧ Keeps allowed jvm l s)
          ∨ (true = true ∧ Keeps allowed jvm l.hosted s) → Keeps allowed jvm l.hosted s := by
        rintro s (⟨h, -⟩ | ⟨-, hs⟩)
        · cases h
        · exact hs
      refine Returns.mono ?_ hhosted fun _ _ h => h
      refine (safe_keeps fun _ => safe_enableEvent hallowed _ _ _).returns.bind fun enabled => ?_
      cases enabled with
      | false => exact returns_pure fun s hs => .inr ⟨rfl, .inr hs⟩
      | true =>
        refine (safe_keeps fun _ => safe_enableEvent hallowed _ _ _).returns.bind fun enabled => ?_
        cases enabled with
        | false => exact returns_pure fun s hs => .inr ⟨rfl, .inr hs⟩
        | true =>
          have hnote : Returns (Keeps allowed jvm l.hosted)
              (Act.modifyWorld fun w => { w with pendingStart := some ⟨options, catalog⟩ })
              fun _ => Keeps allowed jvm
                { l.hosted with pendingStart := some ⟨options, catalog⟩ } := by
            refine returns_modifyWorld (fun _ => rfl) fun w hw => ?_
            rw [← hw]
            rfl
          exact hnote.bind fun _ => returns_pure fun s hs => .inl ⟨rfl, _, hs⟩

end Discreet

/-- A catalog that is asked for its modules may panic, and leaves host and agent alone. -/
theorem agree_askCatalog (choice : CatalogChoice) (context : AgentContext) :
    Agree (Ready pending) (askCatalog choice context) (askCatalog choice context) := by
  have hnote (n : Note) : Agree (Ready pending) (Act.note n) (Act.note n) :=
    (settles_note Ready.journal n).agree
  refine (safe_ready fun _ => safe_world).concur.agree.bind fun w => ?_
  dsimp only
  split
  · refine (hnote _).bind fun _ => ?_
    split
    · exact agree_pure _
    · exact settles_panic.agree
  · split
    · exact agree_pure _
    · exact settles_panic.agree

/-- An agent that is initialized keeps host and agent together: it takes the pipeline that it registers,
or neither. -/
theorem agree_initializeWith {tracer : Tracer} {jar : Option String} {modules : List Module} :
    Agree (Ready pending)
      (onAgent (Agent.initializeWith JvmHost.loaderOps JvmHost.hostOps tracer 0 jar (return modules)))
      (onAgent
        (Agent.initializeWith JvmHost.loaderOps JvmHost.hostOps tracer 0 jar (return modules))) := by
  intro s hs
  refine ⟨rfl, ?_⟩
  have hledger (a : Agent) (t : Session Library) (ts : List Transformer)
      (ht : t.world.ledger = { s.world.ledger with transformers := some ts })
      (hts : ts = (a.installed.map fun i => Transformer.pipeline i.pipeline).toList) :
      Ready pending { t with world := { t.world with agent := a } } := by
    have htransformers : t.world.host.map ToolHost.transformers = some ts :=
      congrArg Ledger.transformers ht
    refine ⟨⟨?_, (congrArg Ledger.pendingStart ht).trans hs.pendingStart⟩, ?_⟩
    · rw [Ledger.IsMatched, ledger, htransformers]
      exact hts
    · rw [← Option.isSome_map (f := ToolHost.transformers), htransformers]
      rfl
  rw [run_onAgent, Agent.runFrom_initializeWith]
  -- An agent with a pipeline only warns; one without registers the pipeline that it takes.
  cases hinstalled : s.world.agent.installed with
  | some i =>
    rw [Agent.runFrom_initInstrumentation_of_some rfl]
    refine hledger ⟨some i, jar⟩ (Agent.warned s) [.pipeline i.pipeline] ?_ rfl
    rw [← hs.toMatched.transformers_of_some hinstalled]
    rfl
  | none =>
    have hempty : s.world.ledger.transformers = some [] := hs.transformers_of_none hinstalled
    have hcalm : (Pipeline.ofModules tracer modules s.records.size).ignore.Calm
        JvmHost.loaderOps := Pipeline.calm_ofModules tracer modules s.records.size
    obtain ⟨journal, hbuild⟩ := @Agent.exists_run_buildAndInstall Library JvmHost.loaderOps
      JvmHost.hostOps 0 tracer (return modules) modules s s rfl
    obtain ⟨answer, s', hinstall, hs'⟩ := JvmHost.returns_installOn hcalm hempty
      { s with journal, records := s.records.push [] } ⟨rfl, Jvm.goesOn_of_eq rfl⟩
    rw [Agent.runFrom_initInstrumentation_of_none rfl, hbuild, hinstall]
    rcases hs' with ⟨e, rfl, hs'⟩ | ⟨rfl, hs'⟩
    · refine hledger ⟨none, jar⟩ s' [] ?_ rfl
      rw [hs'.ledger, ← hempty]
    · exact hledger ⟨some ⟨0, _⟩, jar⟩ s' _ hs'.ledger rfl

/-- Starting the instrumentation may stop at any of its steps, and keeps host and agent together. -/
theorem agree_start (st : PendingStart) :
    Agree (Ready pending) (start st) (start st) := by
  have hall (line : String) (_ : ToolFunction.Discreet line) : True := trivial
  refine (safe_ready fun _ => safe_world).concur.agree.bind fun w => ?_
  refine (safe_ready fun _ => safe_hookLocator hall _).concur.agree.bind fun locator => ?_
  rcases locator with e | locator
  · exact agree_pure _
  dsimp only
  split
  · exact agree_pure _
  · refine (agree_askCatalog _ _).bind fun modules => ?_
    refine (safe_ready fun _ => JvmHost.safe_supportsRetransform 0).concur.agree.bind fun _ => ?_
    refine (safe_ready fun _ => isWorldly_leadsTo.safe_log _ _ _).concur.agree.bind fun _ => ?_
    exact agree_initializeWith

/-- **Starting the instrumentation** does not panic, and keeps host and agent together. -/
theorem safe_tryStart (st : PendingStart) : Safe (Ready pending) (tryStart st) := by
  have hlog (level : Level) (message : String) (fields : List (String × String)) :
      Safe (Ready pending) (Act.log level message fields) :=
    safe_ready fun _ => isWorldly_leadsTo.safe_log level message fields
  refine (agree_start st).attempt.safe.bind fun outcome => ?_
  rcases outcome with p | e | ⟨⟩
  · exact (hlog _ _ _).bind fun _ => (settles_pure _).safe
  · exact (hlog _ _ _).bind fun _ => (settles_pure _).safe
  · exact (settles_pure _).safe

/-- Attaching the library keeps host and agent together. -/
theorem safe_onAttach (options : Option Bytes) (catalog : CatalogChoice) :
    Safe (Matched pending) (onAttach options catalog) := by
  have hall (line : String) (_ : ToolFunction.Discreet line) : True := trivial
  have hhost : Returns (Matched pending) (setUpHost none (some .library)) fun done s =>
      (done = false ∧ Matched pending s) ∨ (done = true ∧ Ready pending s) := by
    intro s hs
    obtain ⟨done, s', hrun, hs'⟩ := returns_setUpHost hall none (some .library) s
      ⟨rfl, Jvm.goesOn_of_eq rfl⟩
    refine ⟨done, s', hrun, hs'.imp (fun h => ⟨h.1, hs.of_ledger h.2.ledger⟩) fun h => ⟨h.1, ?_⟩⟩
    have hledger : s'.world.ledger = s.world.ledger.hosted := h.2.ledger
    refine ⟨⟨?_, (congrArg Ledger.pendingStart hledger).trans hs.pendingStart⟩, ?_⟩
    · rw [hledger]
      exact hs.matched.hosted
    · rw [← Option.isSome_map (f := ToolHost.transformers)]
      exact congrArg Option.isSome (congrArg Ledger.transformers hledger)
  have hstart (st : PendingStart) : Safe (Ready pending) (do
      let _ ← enableEvent .warn JvmEvent.vmDeath
        "cannot enable VMDeath, classes stay instrumented on exit"
      if ← tryStart st then return ok else return failed) := by
    refine (safe_ready fun _ => safe_enableEvent hall _ _ _).bind fun _ => ?_
    refine (safe_tryStart st).bind fun started => ?_
    cases started <;> exact (settles_pure _).safe
  refine (safe_matched fun _ => safe_startupOptions options).bind fun options => ?_
  cases options with
  | none => exact (settles_pure _).safe
  | some options =>
    refine (hhost.bind fun done => ?_ : Returns _ _ fun _ => Matched pending)
    cases done with
    | false =>
      refine returns_pure fun s hs => ?_
      rcases hs with ⟨-, hs⟩ | ⟨h, -⟩
      · exact hs
      · cases h
    | true =>
      refine (hstart ⟨options, catalog⟩).returns.mono (fun s hs => ?_) fun _ s hs => hs.toMatched
      rcases hs with ⟨h, -⟩ | ⟨-, hs⟩
      · cases h
      · exact hs

/-! ### The life of the JVM -/

/-- **The JVM has started:** a start that waits is made if there is a host, and nothing waits any more. -/
theorem run_vmInit (s : Session Library) :
    vmInit.run s = match s.world.pendingStart, s.world.host with
      | some st, some _ => (do let _ ← tryStart st : Act Library Unit).run
          { s with world := { s.world with pendingStart := none } }
      | _, _ => (.ok (), { s with world := { s.world with pendingStart := none } }) := by
  have hforget : (Act.modifyWorld fun w => { w with pendingStart := none }).run s
      = (.ok (), { s with world := { s.world with pendingStart := none } }) := rfl
  show (Act.world >>= _ : Act Library Unit).run s = _
  rw [run_bind_ok run_world]
  show (Act.modifyWorld _ >>= _ : Act Library Unit).run s = _
  rw [run_bind_ok hforget]
  cases s.world.pendingStart with
  | none => rfl
  | some st => cases s.world.host <;> rfl

/-- The start of the JVM leaves no start that waits, and keeps host and agent together. -/
theorem returns_vmInit : Returns (Matched pending) vmInit fun _ => Matched none := by
  intro s hs
  rw [run_vmInit]
  have hforgotten : Matched none { s with world := { s.world with pendingStart := none } } :=
    ⟨hs.matched, rfl⟩
  cases hpending : s.world.pendingStart with
  | none => exact ⟨(), _, rfl, hforgotten⟩
  | some st =>
    cases hhost : s.world.host with
    | none => exact ⟨(), _, rfl, hforgotten⟩
    | some host =>
      have hready : Ready none { s with world := { s.world with pendingStart := none } } := by
        refine ⟨hforgotten, ?_⟩
        rw [hhost]
        rfl
      have hstart : Safe (Ready none) (do let _ ← tryStart st : Act Library Unit) :=
        (safe_tryStart st).bind fun _ => (settles_pure _).safe
      obtain ⟨⟨⟩, s', hrun, hs'⟩ := hstart _ hready
      exact ⟨(), s', hrun, hs'.toMatched⟩

/-- Resetting the agent takes its pipeline out of the host, even if the classes cannot be restored. -/
theorem exists_run_reset (hs : Matched pending s) (hinstalled : s.world.agent.installed = some i) :
    ∃ answer t, (onAgent (Agent.reset JvmHost.hostOps)).run s = (.ok answer, t)
      ∧ Matched pending t := by
  obtain ⟨answer, s', hreset, hs'⟩ := JvmHost.returns_resetOn (hs.transformers_of_some hinstalled) s
    ⟨rfl, Jvm.goesOn_of_eq rfl⟩
  have hgone (t : Session Library) (ht : t.world.ledger = s'.world.ledger) (jar : Option String) :
      Matched pending { t with world := { t.world with agent := ⟨none, jar⟩ } } := by
    have hledger : t.world.ledger = _ := ht.trans hs'.ledger
    refine ⟨?_, (congrArg Ledger.pendingStart hledger).trans hs.pendingStart⟩
    have htransformers : t.world.host.map ToolHost.transformers = some [] :=
      congrArg Ledger.transformers hledger
    rw [Ledger.IsMatched, ledger, htransformers]
    rfl
  rw [run_onAgent, Agent.runFrom_reset_of_some hinstalled, hreset]
  rcases answer with e | restored
  · exact ⟨_, _, rfl, hgone s' rfl _⟩
  · exact ⟨_, _, rfl, hgone { s' with
      journal := s'.journal.log ⟨.debug, "restored " ++ toString restored ++ " classes", []⟩ } rfl _⟩

/-- **The JVM is about to end:** the agent gives its pipeline up, and the host too. -/
theorem safe_vmDeath : Safe (Matched pending) vmDeath := by
  have hlog (level : Level) (message : String) (fields : List (String × String)) :
      Safe (Matched pending) (Act.log level message fields) :=
    safe_matched fun _ => isWorldly_leadsTo.safe_log level message fields
  intro s hs
  rw [vmDeath, run_bind_ok run_world]
  cases hinstalled : s.world.agent.installed with
  | none =>
    refine ⟨(), s, ?_, hs⟩
    rw [Agent.isInitialized, hinstalled]
    rfl
  | some i =>
    obtain ⟨answer, t, hreset, ht⟩ := exists_run_reset hs hinstalled
    rw [Agent.isInitialized, hinstalled]
    show ∃ x s', (_ >>= _ : Act Library Unit).run s = _ ∧ _
    rw [run_bind_ok (run_attempt hreset)]
    rcases answer with e | ⟨⟩
    · exact hlog _ _ _ t ht
    · exact ⟨(), t, rfl, ht⟩

/-- Unloading the library asks the JVM for nothing. -/
theorem exists_run_onUnload (s : Session Library) :
    ∃ journal, onUnload.run s = (.ok (), { s with
      journal, world := { s.world with agent := { s.world.agent with installed := none } } }) := by
  have hdiscard : (onAgent Agent.discard).run s = (.ok s.world.agent.isInitialized,
      { s with world := { s.world with agent := { s.world.agent with installed := none } } }) := rfl
  rw [onUnload, run_bind_ok hdiscard]
  cases s.world.agent.isInitialized with
  | false => exact ⟨s.journal, rfl⟩
  | true => exact ⟨_, rfl⟩

/-! ### The starts of a run -/

/-- The JVM has started, and every start that is made is noted when it begins. -/
def vmInitNoting : StateT (List PendingStart) (Act Library) Unit :=
  vmInitWith fun s => do
    modify fun made => made ++ [s]
    liftM do
      let _ ← tryStart s

/-- The starts that are made in a run of `vmInit`, the earliest first. -/
def startsMade (s : Session Library) : List PendingStart :=
  match ((vmInitNoting.run []).run s).1 with
  | .ok ((), made) => made
  | .error _ => []

/-- A run in which the starts are noted makes the one that waits if there is a host, and does what
the run does in which they are not. -/
theorem run_vmInitNoting (h : vmInit.run s = (.ok (), s')) :
    (vmInitNoting.run []).run s
      = (.ok ((), if s.world.host.isSome then s.world.pendingStart.toList else []), s') := by
  have hworld : ((liftM (Act.world : Act Library Library) :
      StateT (List PendingStart) (Act Library) Library).run []).run s = (.ok (s.world, []), s) := rfl
  have hforget : ((liftM (Act.modifyWorld fun w : Library => { w with pendingStart := none }) :
      StateT (List PendingStart) (Act Library) Unit).run []).run s
        = (.ok ((), []), { s with world := { s.world with pendingStart := none } }) := rfl
  rw [run_vmInit] at h
  rw [vmInitNoting, vmInitWith, StateT.run_bind, run_bind_ok hworld, StateT.run_bind]
  rw [run_bind_ok hforget]
  generalize { s with world := { s.world with pendingStart := none } } = forgotten at h
  dsimp only
  cases hpending : s.world.pendingStart with
  | none =>
    rw [hpending] at h
    cases h
    cases s.world.host <;> rfl
  | some st =>
    cases hhost : s.world.host with
    | none =>
      rw [hpending, hhost] at h
      cases h
      rfl
    | some host =>
      rw [hpending, hhost] at h
      have hstart : (do let _ ← tryStart st : Act Library Unit).run forgotten = (.ok (), s') := h
      show (_ >>= fun _ => pure ((), [] ++ [st]) : Act Library _).run forgotten = _
      exact run_bind_ok hstart

/-- The JVM has started: the one start that waits is made if there is a host, and no other. -/
theorem startsMade_eq (h : vmInit.run s = (.ok (), s')) :
    startsMade s = if s.world.host.isSome then s.world.pendingStart.toList else [] := by
  rw [startsMade, run_vmInitNoting h]

/-! ### Whatever happens -/

/-- What may happen to the library before it is unloaded. -/
inductive Occurrence where
  | load (options : Option Bytes) (catalog : CatalogChoice)
  | attach (options : Option Bytes) (catalog : CatalogChoice)
  /-- The JVM has started. -/
  | vmInit
  /-- The JVM is about to end. -/
  | vmDeath
  | classLoad (e : LoadEvent)
  /-- What surrounds the library changes. -/
  | outside (jvm : Jvm) (environment : Environment) (files : FileTree) (catalog : Catalog)

/-- What the library does about it. -/
def Occurrence.act : Occurrence → Act Library Unit
  | .load options catalog => do let _ ← onLoad options catalog
  | .attach options catalog => do let _ ← onAttach options catalog
  | .vmInit => EntryPoints.vmInit
  | .vmDeath => EntryPoints.vmDeath
  | .classLoad e => do let _ ← JvmHost.hook e
  | .outside jvm environment files catalog =>
    Act.modifyWorld fun w => { w with jvm, environment, files, catalog }

/-- How often the library was loaded with success, how often a start was made because the JVM had
started, and whether the JVM has not started since the library was loaded. -/
structure Tally where
  accepted : Nat
  starts : Nat
  waiting : Bool

/-- The tally with one more occurrence, in a session. -/
def Tally.add (t : Tally) (s : Session Library) : Occurrence → Tally
  | .load options catalog =>
    match ((onLoad options catalog).run s).1 with
    | .ok answer => if answer = ok then { t with accepted := t.accepted + 1, waiting := true } else t
    | .error _ => t
  | .vmInit => { t with starts := t.starts + (startsMade s).length, waiting := false }
  | _ => t

/-- The tally and the session after one more occurrence. -/
def happen (p : Tally × Session Library) (o : Occurrence) : Tally × Session Library :=
  (p.1.add p.2 o, (o.act.run p.2).2)

/-- The tally and the session after some occurrences, from the start. -/
def history (jvm : Jvm) (environment : Environment) (files : FileTree)
    (occurrences : List Occurrence) : Tally × Session Library :=
  occurrences.foldl happen (⟨0, 0, false⟩, .start (.start jvm environment files))

/-- Host and agent match, and for every start that was made or that waits the library was loaded. -/
structure Tally.Accounts (t : Tally) (s : Session Library) : Prop where
  matched : s.world.ledger.IsMatched
  waiting : s.world.pendingStart.isSome = t.waiting
  starts : t.starts + t.waiting.toNat ≤ t.accepted

/-- The accounts tell that host and agent match, with the start that waits. -/
theorem Tally.Accounts.toMatched {t : Tally} (h : t.Accounts s) : Matched s.world.pendingStart s :=
  ⟨h.matched, rfl⟩

/-- What keeps host and agent together, and the start that waits, keeps the accounts. -/
theorem Tally.Accounts.of_matched {t : Tally} (h : t.Accounts s)
    (h' : Matched s.world.pendingStart s') : t.Accounts s' :=
  ⟨h'.matched, h'.pendingStart ▸ h.waiting, h.starts⟩

/-- **One occurrence** keeps the accounts, and does not panic. -/
theorem Tally.Accounts.happen {t : Tally} (h : t.Accounts s) (o : Occurrence) :
    ∃ s', o.act.run s = (.ok (), s') ∧ (t.add s o).Accounts s' := by
  have hsafe {α : Type} {a : Act Library α} (ha : Safe (Matched s.world.pendingStart) a) :
      ∃ s', (do let _ ← a : Act Library Unit).run s = (.ok (), s') ∧ t.Accounts s' := by
    obtain ⟨x, s', hrun, hs'⟩ := ha s h.toMatched
    exact ⟨s', run_bind_ok hrun, h.of_matched hs'⟩
  cases o with
  | load options catalog =>
    obtain ⟨answer, s', hrun, hs'⟩ := returns_onLoad (fun _ hline => hline) options catalog s
      ⟨rfl, Jvm.goesOn_of_eq rfl⟩
    refine ⟨s', run_bind_ok hrun, ?_⟩
    rw [add, hrun]
    rcases hs' with ⟨rfl, start, hs'⟩ | ⟨rfl, hs'⟩
    · have hstarts := h.starts
      refine ⟨?_, congrArg (fun l => l.pendingStart.isSome) hs'.ledger, ?_⟩
      · rw [hs'.ledger]
        exact h.matched
      · show t.starts + 1 ≤ t.accepted + 1
        omega
    · rcases hs' with hs' | hs'
      · exact h.of_matched (h.toMatched.of_ledger hs'.ledger)
      · refine h.of_matched ⟨?_, congrArg Ledger.pendingStart hs'.ledger⟩
        rw [hs'.ledger]
        exact h.matched.hosted
  | attach options catalog => exact hsafe (safe_onAttach options catalog)
  | vmInit =>
    -- A start that is made here was waiting, and waits no more: the sum of both stays.
    obtain ⟨⟨⟩, s', hrun, hs'⟩ := returns_vmInit s h.toMatched
    refine ⟨s', hrun, hs'.matched, ?_, ?_⟩
    · rw [hs'.pendingStart]
      rfl
    · have hmade : (startsMade s).length ≤ t.waiting.toNat := by
        rw [startsMade_eq hrun, ← h.waiting]
        split <;> cases s.world.pendingStart <;> simp
      have hstarts := h.starts
      show t.starts + (startsMade s).length + 0 ≤ t.accepted
      omega
  | vmDeath =>
    obtain ⟨⟨⟩, s', hrun, hs'⟩ := safe_vmDeath s h.toMatched
    exact ⟨s', hrun, h.of_matched hs'⟩
  | classLoad e =>
    exact hsafe (safe_matched fun _ => JvmHost.safe_loadHook (fun _ _ => trivial) 2 e)
  | outside jvm environment files catalog => exact ⟨_, rfl, h.matched, h.waiting, h.starts⟩

/-- **The accounts hold of every history**, by induction on the occurrences. -/
theorem accounts_history (jvm : Jvm) (environment : Environment) (files : FileTree)
    (occurrences : List Occurrence) :
    (history jvm environment files occurrences).1.Accounts
      (history jvm environment files occurrences).2 := by
  have hrun (p : Tally × Session Library) (hp : p.1.Accounts p.2) :
      (occurrences.foldl happen p).1.Accounts (occurrences.foldl happen p).2 := by
    induction occurrences generalizing p with
    | nil => exact hp
    | cons o rest ih =>
      obtain ⟨s', hrun, hs'⟩ := hp.happen o
      refine ih (happen p o) ?_
      rw [happen, hrun]
      exact hs'
  exact hrun _ ⟨rfl, rfl, Nat.le_refl 0⟩

/-- The library is discreet while it does something. -/
def IsDiscreet {α : Type} (a : Act Library α) (s : Session Library) : Prop :=
  s.world.jvm.GoesOn ToolFunction.Discreet (a.run s).2.world.jvm

/-- The library is discreet while it is loaded. -/
theorem isDiscreet_onLoad (options : Option Bytes) (catalog : CatalogChoice) (s : Session Library) :
    IsDiscreet (onLoad options catalog) s := by
  obtain ⟨answer, s', hrun, hs'⟩ := returns_onLoad (fun _ hline => hline) options catalog s
    ⟨rfl, Jvm.goesOn_of_eq rfl⟩
  rw [IsDiscreet, hrun]
  rcases hs' with ⟨-, start, hs'⟩ | ⟨-, hs' | hs'⟩
  · exact hs'.jvm
  · exact hs'.jvm
  · exact hs'.jvm

/-- The library is discreet while a class is loaded. -/
theorem isDiscreet_hook (e : LoadEvent) (s : Session Library) : IsDiscreet (JvmHost.hook e) s := by
  obtain ⟨block, s', hrun, hreach⟩ := JvmHost.safe_loadHook (fun _ hline => hline) 2 e s
    (Reaches.refl s.world)
  rw [IsDiscreet, JvmHost.hook, hrun]
  exact hreach.jvm

/-- The library is discreet while it is unloaded, and leaves no pipeline installed. -/
theorem isDiscreet_onUnload (s : Session Library) :
    IsDiscreet onUnload s ∧ (onUnload.run s).2.world.agent.isInitialized = false := by
  obtain ⟨journal, hunload⟩ := exists_run_onUnload s
  rw [IsDiscreet, hunload]
  exact ⟨Jvm.goesOn_of_eq rfl, rfl⟩

/-- Where no start can be made, the start of the JVM only forgets what waits. -/
theorem run_vmInit_of_nothing
    (h : (if s.world.host.isSome then s.world.pendingStart.toList else []) = []) :
    vmInit.run s = (.ok (), { s with world := { s.world with pendingStart := none } }) := by
  rw [run_vmInit]
  cases hpending : s.world.pendingStart with
  | none => rfl
  | some st =>
    cases hhost : s.world.host with
    | none => rfl
    | some host =>
      rw [hpending, hhost] at h
      cases h

/-- **Whatever happened to the library** since it was there: it does not panic, and it is discreet while
it is loaded, while it is unloaded, and while a class is loaded. When the JVM starts, a run that notes its
starts does what the run does that was tallied: it makes the start that waits, once, if there is a host,
and makes no other. If it makes none, nothing is done but to forget what waits, and nothing at all if the
library was not loaded meanwhile; so it was loaded at least as often as a start was made. The host has the
one pipeline registered that the agent has installed, or none, and the agent has none once the library was
unloaded. -/
theorem lifecycle (jvm : Jvm) (environment : Environment) (files : FileTree)
    (occurrences : List Occurrence) :
    let t := (history jvm environment files occurrences).1
    let s := (history jvm environment files occurrences).2
    (∀ o : Occurrence, (o.act.run s).1 = .ok ())
      ∧ (∀ options catalog, IsDiscreet (onLoad options catalog) s)
      ∧ (∀ e, IsDiscreet (JvmHost.hook e) s)
      ∧ IsDiscreet onUnload s
      ∧ (vmInitNoting.run []).run s = (.ok ((), startsMade s), (vmInit.run s).2)
      ∧ startsMade s = (if s.world.host.isSome then s.world.pendingStart.toList else [])
      ∧ (startsMade s = [] →
        vmInit.run s = (.ok (), { s with world := { s.world with pendingStart := none } }))
      ∧ (t.waiting = false → vmInit.run s = (.ok (), s))
      ∧ t.starts ≤ t.accepted
      ∧ (s.world.host.map ToolHost.transformers).getD []
        = (s.world.agent.installed.map fun i => Transformer.pipeline i.pipeline).toList
      ∧ (onUnload.run s).2.world.agent.isInitialized = false := by
  have haccounts := accounts_history jvm environment files occurrences
  generalize history jvm environment files occurrences = p at haccounts
  obtain ⟨t, s⟩ := p
  have hpanic (o : Occurrence) : (o.act.run s).1 = .ok () := by
    obtain ⟨s', hrun, -⟩ := haccounts.happen o
    rw [hrun]
  obtain ⟨s', hinit, -⟩ := haccounts.happen .vmInit
  have hmade : startsMade s = if s.world.host.isSome then s.world.pendingStart.toList else [] :=
    startsMade_eq hinit
  have hnoted : (vmInitNoting.run []).run s = (.ok ((), startsMade s), (vmInit.run s).2) := by
    rw [run_vmInitNoting hinit, hmade, show vmInit.run s = _ from hinit]
  have hidle (hwaiting : t.waiting = false) : vmInit.run s = (.ok (), s) := by
    have hpending : s.world.pendingStart = none := by
      rw [← Option.not_isSome_iff_eq_none, haccounts.waiting, hwaiting]
      exact Bool.false_ne_true
    rw [run_vmInit_of_nothing (by rw [hpending]; exact ite_self _), ← hpending]
  obtain ⟨hunloads, hgone⟩ := isDiscreet_onUnload s
  exact ⟨hpanic, fun options catalog => isDiscreet_onLoad options catalog s,
    fun e => isDiscreet_hook e s, hunloads, hnoted, hmade,
    fun hnone => run_vmInit_of_nothing (hmade.symm.trans hnone), hidle,
    Nat.le_trans (Nat.le_add_right _ _) haccounts.starts, haccounts.matched, hgone⟩

/-- A library that is loaded into a JVM which then starts. -/
def sampleHistory : Tally × Session Library :=
  history (.start #[] #[] [] [] [] .regular) ⟨[]⟩ ⟨[]⟩ [.load none (.fixed .empty), .vmInit]

/-- The start is made, and when the JVM reports once more that it has started, nothing happens. -/
theorem lifecycle_sample :
    sampleHistory.1.starts = 1 ∧ sampleHistory.1.waiting = false
      ∧ startsMade sampleHistory.2 = [] ∧ vmInit.run sampleHistory.2 = (.ok (), sampleHistory.2)
      ∧ sampleHistory.2.world.agent.isInitialized = true := by
  have hlifecycle := lifecycle (.start #[] #[] [] [] [] .regular) ⟨[]⟩ ⟨[]⟩
    [.load none (.fixed .empty), .vmInit]
  obtain ⟨-, -, -, -, -, hmade, -, hidle, -⟩ := hlifecycle
  have hwaiting : sampleHistory.1.waiting = false := by decide +kernel
  refine ⟨by decide +kernel, hwaiting, ?_, hidle hwaiting, by decide +kernel⟩
  exact hmade.trans (by decide +kernel)

end EntryPoints

end AdviceWeaver

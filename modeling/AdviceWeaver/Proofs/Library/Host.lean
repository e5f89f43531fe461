import AdviceWeaver.Library.Host
import AdviceWeaver.Proofs.Hosting.Registry
import AdviceWeaver.Proofs.Library.LoadHook

/-!
# What the library keeps

Between two calls of the JVM the library keeps three things: the transformers that are registered with
its host, if that was set up, a start that waits, and its agent (`Library.Ledger`). Nothing that the JVM
is asked changes them, and classes that are loaded meanwhile do not either. Setting the host up makes an
empty list of transformers of none, and installing a pipeline on it or taking one out changes that list
and nothing else.

## Main results

* `JvmHost.returns_install` — setting the host up.
* `JvmHost.returns_installOn`, `JvmHost.returns_resetOn` — a pipeline is registered with the host, and
  taken out again.
-/

namespace AdviceWeaver

open Act Library

/-- What the library keeps between two calls of the JVM. -/
structure Library.Ledger where
  /-- What is registered with the host, if there is one. -/
  transformers : Option (List Transformer)
  pendingStart : Option PendingStart
  agent : Agent

/-- The ledger of a library whose host is set up: nothing is registered that was not so before. -/
def Library.Ledger.hosted (l : Library.Ledger) : Library.Ledger :=
  { l with transformers := some (l.transformers.getD []) }

namespace Library

variable {allowed : String → Prop} {α : Type} {a : Act Library α} {w w' : Library} {jvm : Jvm}
  {l : Ledger} {s : Session Library}

def ledger (w : Library) : Ledger :=
  ⟨w.host.map ToolHost.transformers, w.pendingStart, w.agent⟩

/-- The session has a library with this ledger, and the JVM of the library went on from this one. -/
structure Keeps (allowed : String → Prop) (jvm : Jvm) (l : Ledger) (s : Session Library) : Prop where
  ledger : s.world.ledger = l
  jvm : jvm.GoesOn allowed s.world.jvm

/-- What is kept does not depend on the journal. -/
theorem Keeps.journal (s : Session Library) (journal : Journal) (hs : Keeps allowed jvm l s) :
    Keeps allowed jvm l { s with journal } :=
  ⟨hs.ledger, hs.jvm⟩

theorem Reaches.ledger_eq (h : w.Reaches allowed w') : w'.ledger = w.ledger := by
  rw [ledger, ledger, h.host, h.pendingStart, h.agent]

/-- A session whose library stayed within reach keeps its ledger. -/
theorem Keeps.of_reaches {s' : Session Library} (hs : Keeps allowed jvm l s)
    (h : s.world.Reaches allowed s'.world) : Keeps allowed jvm l s' :=
  ⟨h.ledger_eq.trans hs.ledger, hs.jvm.trans h.jvm⟩

/-- Calls of the JVM keep the ledger. -/
theorem safe_keeps (h : ∀ w₀ : Library, Safe (w₀.LeadsTo allowed) a) :
    Safe (Keeps allowed jvm l) a := by
  intro s hs
  obtain ⟨x, s', hrun, hreach⟩ := h s.world s (Reaches.refl _)
  exact ⟨x, s', hrun, hs.of_reaches hreach⟩

/-- Logging keeps the ledger. -/
theorem safe_log_keeps (level : Level) (message : String) (fields : List (String × String)) :
    Safe (Keeps allowed jvm l) (Act.log level message fields) :=
  safe_keeps fun _ => isWorldly_leadsTo.safe_log level message fields

/-- A change of the library that leaves its JVM alone. -/
theorem returns_modifyWorld {g : Library → Library} {l' : Ledger} (hjvm : ∀ w, (g w).jvm = w.jvm)
    (hledger : ∀ w : Library, w.ledger = l → (g w).ledger = l') :
    Returns (Keeps allowed jvm l) (Act.modifyWorld g) fun _ => Keeps allowed jvm l' := by
  intro s hs
  refine ⟨(), _, rfl, hledger _ hs.ledger, ?_⟩
  show jvm.GoesOn allowed (g s.world).jvm
  rw [hjvm]
  exact hs.jvm

end Library

namespace JvmHost

variable {allowed : String → Prop} {w₀ : Library} {jvm : Jvm} {l : Ledger}

/-! ### Setting the host up -/

section Discreet

variable (hallowed : ∀ line, ToolFunction.Discreet line → allowed line)
include hallowed

theorem concur_hook (e : LoadEvent) : Concur (w₀.LeadsTo allowed) (hook e) (hook e) :=
  (safe_loadHook hallowed 2 e).concur

/-- A failure is told within reach. -/
theorem safe_failure {α : Type} (code : ErrorCode) :
    Safe (w₀.LeadsTo allowed) (failure code : Act Library (Except HostError α)) :=
  (ToolInterface.safe_describeError hallowed code).bind fun _ => (settles_pure _).safe

/-- An answer is passed on, or its code is told. -/
theorem safe_orFail {α : Type} (answer : ToolTable.ToolAnswer α) :
    Safe (w₀.LeadsTo allowed) (orFail answer) := by
  rcases answer with code | a
  · exact safe_failure hallowed code
  · exact (settles_pure _).safe

/-- Capabilities are acquired within reach, those without retransformation where all of them are
refused. -/
theorem safe_acquire : Safe (w₀.LeadsTo allowed) acquire := by
  refine (ToolTable.safe_addCapabilities hallowed _).bind fun answer => ?_
  rcases answer with code | ⟨⟩
  · refine (ToolInterface.safe_whenKept_describeError hallowed _ _ _ _).bind fun _ => ?_
    refine (ToolTable.safe_addCapabilities hallowed _).bind fun answer => ?_
    rcases answer with code | ⟨⟩
    · exact safe_failure hallowed code
    · exact (settles_pure _).safe
  · exact (settles_pure _).safe

/-- An event is enabled or disabled within reach, with the hook called for what is loaded then. -/
theorem safe_setEventNotificationMode (enable : Bool) (event : Nat) :
    Safe (w₀.LeadsTo allowed) (ToolTable.setEventNotificationMode hook enable event) :=
  (ToolTable.concur_setEventNotificationMode hallowed (concur_hook hallowed) enable event).safe

/-- Callbacks are set and the events enabled within reach. -/
theorem safe_subscribe (vmInit vmDeath : Option Listener) :
    Safe (w₀.LeadsTo allowed) (subscribe vmInit vmDeath) := by
  refine (ToolTable.safe_setEventCallbacks hallowed _).bind fun answer => ?_
  rcases answer with code | ⟨⟩
  · exact safe_failure hallowed code
  · exact (safe_setEventNotificationMode hallowed true _).bind fun answer =>
      safe_orFail hallowed answer

/-- A jar is added to the search path within reach; one whose path is no text is refused before any
call. -/
theorem safe_addToBootstrapSearch (jar : Bytes) :
    Safe (w₀.LeadsTo allowed) (addToBootstrapSearch jar) := by
  unfold addToBootstrapSearch
  split
  · exact (settles_pure _).safe
  · exact (ToolInterface.safe_addToBootstrapSearch hallowed _).bind fun answer =>
      safe_orFail hallowed answer

/-- **Setting the host up** leaves the transformers of a host that is there, or makes one without
transformers. After a failure nothing has changed. -/
theorem returns_install (vmInit vmDeath : Option Listener) :
    Returns (Keeps allowed jvm l) (install vmInit vmDeath) fun answer s =>
      (∃ e, answer = .error e ∧ Keeps allowed jvm l s)
        ∨ (answer = .ok () ∧ Keeps allowed jvm l.hosted s) := by
  have hset (hnone : l.transformers = none) (supports : Bool) : Returns (Keeps allowed jvm l)
      (Act.modifyWorld fun w => { w with host := some ⟨supports, []⟩ })
      fun _ => Keeps allowed jvm l.hosted := by
    refine returns_modifyWorld (fun _ => rfl) fun w hw => ?_
    rw [Ledger.hosted, hnone, ← hw]
    rfl
  intro s hs
  rw [install, run_bind_ok run_world]
  cases hhost : s.world.host with
  | none =>
    have hnone : l.transformers = none := by
      rw [← hs.ledger, ledger, hhost]
      rfl
    refine ((safe_keeps fun _ => ToolInterface.safe_connect hallowed).returns.bind fun answer => ?_ :
      Returns (Keeps allowed jvm l) _ _) s hs
    rcases answer with code | ⟨⟩
    · exact returns_pure fun s hs => .inl ⟨_, rfl, hs⟩
    refine (safe_keeps fun _ => safe_acquire hallowed).returns.bind fun answer => ?_
    rcases answer with e | supports
    · exact returns_pure fun s hs => .inl ⟨_, rfl, hs⟩
    refine (safe_keeps fun _ => safe_subscribe hallowed vmInit vmDeath).returns.bind
      fun answer => ?_
    rcases answer with e | ⟨⟩
    · exact returns_pure fun s hs => .inl ⟨_, rfl, hs⟩
    · exact (hset hnone supports).bind fun _ => returns_pure fun s hs => .inr ⟨rfl, hs⟩
  | some host =>
    refine ⟨.ok (), s, rfl, .inr ⟨rfl, ?_, hs.jvm⟩⟩
    rw [Ledger.hosted, ← hs.ledger, ledger, hhost]
    rfl

/-! ### Asking the host -/

/-- The loader of a class is described within reach, and given up again. -/
theorem safe_describeLoaderOf (r : JvmRef) (name : String) :
    Safe (w₀.LeadsTo allowed) (describeLoaderOf r name) := by
  refine (ToolTable.safe_getClassLoader hallowed r).bind fun answer => ?_
  rcases answer with code | _ | loader
  · exact (ToolInterface.safe_whenKept_describeError hallowed _ code _
      fun error => [("type_name", name), ("error", error)]).bind fun _ => (settles_pure _).safe
  · exact (settles_pure _).safe
  · exact (NativeInterface.concur_using_ _
      (LoaderAccess.concur_describe hallowed (concur_hook hallowed) loader)).safe

/-- A loaded class is described within reach, or is left out and its reference dropped. -/
theorem safe_describeClass (r : JvmRef) : Safe (w₀.LeadsTo allowed) (describeClass r) := by
  refine (ToolInterface.safe_getClassSignature hallowed r).bind fun answer => ?_
  split
  · exact (NativeTable.safe_deleteLocalRef _).bind fun _ => (settles_pure _).safe
  · next name _ =>
    refine (ToolTable.safe_isModifiableClass hallowed r).bind fun modifiable => ?_
    exact (safe_describeLoaderOf hallowed r name).bind fun _ => (settles_pure _).safe

end Discreet

/-- Asking for the loaded classes reaches no further than other calls, but is not discreet. -/
theorem safe_loadedClasses : Safe (w₀.LeadsTo fun _ => True) loadedClasses := by
  have hall (line : String) (_ : ToolFunction.Discreet line) : True := trivial
  refine (NativeInterface.safe_isAttached hall).bind fun attached => ?_
  split
  · exact (settles_pure _).safe
  refine (ToolInterface.safe_getLoadedClasses fun _ => trivial).bind fun answer => ?_
  rcases answer with code | refs
  · exact safe_failure hall code
  · exact (Concur.filterMapM (fun r => (safe_describeClass hall r).concur) refs).safe.bind fun _ =>
      (settles_pure _).safe

/-- Transforming classes again reaches no further than other calls, but is not discreet. -/
theorem safe_retransform (classes : List LoadedClass) :
    Safe (w₀.LeadsTo fun _ => True) (retransform classes) := by
  have hall (line : String) (_ : ToolFunction.Discreet line) : True := trivial
  refine safe_vm.bind fun vm => ?_
  refine (ToolInterface.concur_retransformClasses (fun _ => trivial) (concur_hook hall)
    _).safe.bind fun answer => ?_
  rcases answer with code | ⟨⟩
  · refine (ToolInterface.safe_describeError hall code).bind fun reason => ?_
    exact (settles_pure _).safe
  · exact (settles_pure _).safe

/-- Whether the host supports retransformation is told without a call. -/
theorem safe_supportsRetransform (h : HostId) :
    Safe (w₀.LeadsTo allowed) (hostOps.supportsRetransform h) :=
  safe_world.bind fun _ => (settles_pure _).safe

/-! ### Pipelines on the host -/

section Pipelines

variable {p : Pipeline} {h : HostId} {ts : List Transformer}

/-- A change of the registered transformers is entered into the ledger. -/
theorem returns_modifyTransformers (f : List Transformer → List Transformer)
    (hts : l.transformers = some ts) :
    Returns (Keeps allowed jvm l) (modifyTransformers f)
      fun _ => Keeps allowed jvm { l with transformers := some (f ts) } := by
  refine returns_modifyWorld (fun _ => rfl) fun w hw => ?_
  subst hw
  obtain ⟨host, hhost, rfl⟩ := Option.map_eq_some_iff.1 hts
  rw [ledger, hhost]
  rfl

/-- A transformer that is added is the last in the ledger. -/
theorem returns_addTransformer (t : Transformer) (hts : l.transformers = some ts) :
    Returns (Keeps allowed jvm l) (hostOps.addTransformer h t)
      fun _ => Keeps allowed jvm { l with transformers := some (ts ++ [t]) } :=
  returns_modifyTransformers (fun all => all ++ [t]) hts

/-- A transformer that is removed is gone from the ledger, if it was there. -/
theorem returns_removeTransformer (t : Transformer) (hts : l.transformers = some ts) :
    Returns (Keeps allowed jvm l) (hostOps.removeTransformer h t)
      fun _ => Keeps allowed jvm { l with transformers := some (t.remove ts).1 } := by
  intro s hs
  have hall : s.world.host.map ToolHost.transformers = some ts := by
    rw [← hts, ← hs.ledger]
    rfl
  have hremove (all : List Transformer)
      (hall : (s.world.host.map ToolHost.transformers).getD [] = all) :
      (hostOps.removeTransformer h t).run s
        = (do modifyTransformers fun _ => (t.remove all).1
              return (t.remove all).2).run s := by
    subst hall
    rfl
  obtain ⟨⟨⟩, s', hrun, hs'⟩ :=
    returns_modifyTransformers (fun _ => (t.remove ts).1) hts s hs
  refine ⟨(t.remove ts).2, s', ?_, hs'⟩
  rw [hremove ts (by rw [hall]; rfl)]
  exact run_bind_ok hrun

/-- The only transformer is removed. -/
theorem remove_singleton (t : Transformer) : (t.remove [t]).1 = [] := by
  simp [Transformer.remove]

/-- A record that is cleared is none of the ledger. -/
theorem safe_clearRecord (record : RecordId) :
    Safe (Keeps allowed jvm l) (clearRecord record : Act Library Unit) :=
  (settles_modify fun _ hs => ⟨hs.ledger, hs.jvm⟩).safe

/-- **Installing a pipeline** on a host without transformers leaves it the only one, or none. -/
theorem returns_installOn {ops : LoaderOps Library} (hcalm : p.ignore.Calm ops)
    (hempty : l.transformers = some []) :
    Returns (Keeps (fun _ => True) jvm l) (p.installOn ops hostOps h) fun answer s =>
      (∃ e, answer = .error e ∧ Keeps (fun _ => True) jvm l s)
        ∨ (answer = .ok ()
          ∧ Keeps (fun _ => True) jvm { l with transformers := some [.pipeline p] } s) := by
  have hremove : Returns (Keeps (fun _ => True) jvm { l with transformers := some [.pipeline p] })
      (hostOps.removeTransformer h (.pipeline p)) fun _ => Keeps (fun _ => True) jvm l := by
    refine (returns_removeTransformer (.pipeline p) rfl).mono (fun _ hs => hs) fun _ s hs => ?_
    rw [remove_singleton, ← hempty] at hs
    exact hs
  exact Pipeline.returns_installOn_of Keeps.journal hcalm
    (returns_addTransformer (.pipeline p) hempty) hremove (safe_keeps fun _ => safe_supportsRetransform h)
    (safe_keeps fun _ => safe_loadedClasses) fun classes => safe_keeps fun _ => safe_retransform classes

/-- **Taking out** the only pipeline of a host leaves none, whether its classes can be restored or not. -/
theorem returns_resetOn (honly : l.transformers = some [.pipeline p]) :
    Returns (Keeps (fun _ => True) jvm l) (p.resetOn hostOps h)
      fun _ => Keeps (fun _ => True) jvm { l with transformers := some [] } := by
  have hremove : Returns (Keeps (fun _ => True) jvm l) (hostOps.removeTransformer h (.pipeline p))
      fun _ => Keeps (fun _ => True) jvm { l with transformers := some [] } := by
    refine (returns_removeTransformer (.pipeline p) honly).mono (fun _ hs => hs) fun _ s hs => ?_
    rw [remove_singleton] at hs
    exact hs
  exact Pipeline.returns_resetOn_of Keeps.journal hremove (safe_clearRecord p.record)
    (safe_keeps fun _ => safe_loadedClasses) fun classes => safe_keeps fun _ => safe_retransform classes

end Pipelines

end JvmHost

end AdviceWeaver

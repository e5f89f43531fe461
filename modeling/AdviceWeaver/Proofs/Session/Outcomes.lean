import AdviceWeaver.Session.Basic

/-!
# Outcomes of actions

An action may write to the journal, remember what it looked up, and ask outside, and still always
come to the same result. `Act.Settles` says so: whatever good session it is started in, the action
ends with a certain result — which may be that it panics — and leaves a good session. `Act.Safe`
leaves the result open, but for that the action does not panic.

What a good session is differs from one use to another. In all of them it does not matter what the
journal holds.

## Main results

* `Act.Settles.bind` — actions in sequence settle if each of them does.
* `Act.Settles.unique` — the result is the same whenever the action is started.
-/

namespace AdviceWeaver.Act

variable {ε α β : Type} {good : Session ε → Prop} {a b : Act ε α} {f : α → Act ε β}
  {v : Except Panic α} {w : Except Panic β} {s s' : Session ε} {x : α}

/-- Started in a good session, the action ends with `v` and leaves a good session. -/
def Settles (good : Session ε → Prop) (a : Act ε α) (v : Except Panic α) : Prop :=
  ∀ s, good s → ∃ s', a.run s = (v, s') ∧ good s'

/-- Started in a good session, the action does not panic and leaves a good session. -/
def Safe (good : Session ε → Prop) (a : Act ε α) : Prop :=
  ∀ s, good s → ∃ x s', a.run s = (.ok x, s') ∧ good s'

/-! ### Running -/

/-- A sequence runs on where its first action succeeds. -/
theorem run_bind_ok (h : a.run s = (.ok x, s')) : (a >>= f).run s = (f x).run s' := by
  rw [ExceptT.run_bind]
  show StateT.bind _ _ s = _
  simp only [StateT.bind, h]
  rfl

/-- A sequence ends where its first action panics. -/
theorem run_bind_error {p : Panic} (h : a.run s = (.error p, s')) :
    (a >>= f).run s = (.error p, s') := by
  rw [ExceptT.run_bind]
  show StateT.bind _ _ s = _
  simp only [StateT.bind, h]
  rfl

theorem run_world : (world : Act ε ε).run s = (.ok s.world, s) :=
  rfl

/-- A line that is logged is added to the journal. -/
theorem run_log (level : Level) (message : String) (fields : List (String × String)) :
    (log level message fields).run s
      = (.ok (), { s with journal := s.journal.log ⟨level, message, fields⟩ }) :=
  rfl

/-! ### Settled actions -/

theorem settles_pure (x : α) : Settles good (pure x) (.ok x) :=
  fun s hs => ⟨s, rfl, hs⟩

theorem settles_panic : Settles good (panic : Act ε α) (.error {}) :=
  fun s hs => ⟨s, rfl, hs⟩

/-- **Actions in sequence** settle if each of them does. -/
theorem Settles.bind (ha : Settles good a (.ok x)) (hf : Settles good (f x) w) :
    Settles good (a >>= f) w := by
  intro s hs
  obtain ⟨s', hrun, hs'⟩ := ha s hs
  obtain ⟨s'', hrun', hs''⟩ := hf s' hs'
  exact ⟨s'', (run_bind_ok hrun).trans hrun', hs''⟩

/-- A sequence settles where its first action panics. -/
theorem Settles.bind_error {p : Panic} (ha : Settles good a (.error p)) :
    Settles good (a >>= f) (.error p) := by
  intro s hs
  obtain ⟨s', hrun, hs'⟩ := ha s hs
  exact ⟨s', run_bind_error hrun, hs'⟩

/-- Actions in sequence come to some result if each of them does. -/
theorem exists_settles_bind (ha : ∃ v, Settles good a v) (hf : ∀ x, ∃ w, Settles good (f x) w) :
    ∃ w, Settles good (a >>= f) w := by
  rcases ha with ⟨p | x, hv⟩
  · exact ⟨.error p, hv.bind_error⟩
  · obtain ⟨w, hw⟩ := hf x
    exact ⟨w, hv.bind hw⟩

/-- A sequence settles if its second action does, for what the first one answers. -/
theorem Settles.exists_bind (ha : Settles good a (.ok x)) (hf : ∃ w, Settles good (f x) w) :
    ∃ w, Settles good (a >>= f) w := by
  obtain ⟨w, hw⟩ := hf
  exact ⟨w, ha.bind hw⟩

/-- **The result is the same** whenever the action is started. -/
theorem Settles.unique {v' : Except Panic α} (hs : good s) (h : Settles good a v)
    (h' : Settles good a v') : v = v' := by
  obtain ⟨t, hrun, -⟩ := h s hs
  obtain ⟨t', hrun', -⟩ := h' s hs
  exact (Prod.mk.inj (hrun.symm.trans hrun')).1

/-- An action that has the same result in all sessions has it in good ones. -/
theorem Settles.of_forall (h : Settles (fun _ => True) a v) {w : Except Panic α}
    (h' : Settles good a w) : Settles good a v := by
  intro s hs
  obtain ⟨s', hrun, hs'⟩ := h' s hs
  obtain ⟨s₁, hrun₁, -⟩ := h s trivial
  obtain ⟨rfl, -⟩ := Prod.mk.inj (hrun.symm.trans hrun₁)
  exact ⟨s', hrun, hs'⟩

/-- A settled action has its outcome in every good session. -/
theorem Settles.run_eq (hs : good s) (h : Settles good a v) : (a.run s).1 = v := by
  obtain ⟨s', hrun, -⟩ := h s hs
  rw [hrun]

/-- A panic that is caught leaves the session as it was at the panic. -/
theorem Settles.attempt (h : Settles good a v) : Settles good (attempt a) (.ok v) := by
  intro s hs
  obtain ⟨s', hrun, hs'⟩ := h s hs
  refine ⟨s', ?_, hs'⟩
  show ((.ok (a.run s).1, (a.run s).2) : Except Panic (Except Panic α) × Session ε) = _
  rw [hrun]

/-- A change of the session settles if it keeps it good. -/
theorem settles_modify {g : Session ε → Session ε} (h : ∀ s, good s → good (g s)) :
    Settles good (modify g : Act ε Unit) (.ok ()) :=
  fun s hs => ⟨g s, rfl, h s hs⟩

/-- What is read from the session may decide how an action goes on. -/
theorem settles_get_bind {f : Session ε → Act ε β}
    (h : ∀ s, good s → ∃ s', (f s).run s = (w, s') ∧ good s') :
    Settles good (get >>= f) w := by
  intro s hs
  exact h s hs

/-! ### Safe actions -/

/-- A settled action that answers is safe. -/
theorem Settles.safe (h : Settles good a (.ok x)) : Safe good a := by
  intro s hs
  obtain ⟨s', hrun, hs'⟩ := h s hs
  exact ⟨x, s', hrun, hs'⟩

/-- Safe actions in a row are safe. -/
theorem Safe.bind (ha : Safe good a) (hf : ∀ x, Safe good (f x)) : Safe good (a >>= f) := by
  intro s hs
  obtain ⟨x, s', hrun, hs'⟩ := ha s hs
  obtain ⟨y, s'', hrun', hs''⟩ := hf x s' hs'
  exact ⟨y, s'', (run_bind_ok hrun).trans hrun', hs''⟩

theorem safe_world : Safe good (world : Act ε ε) :=
  fun s hs => ⟨s.world, s, rfl, hs⟩

/-- An action without a result of its own settles if it is safe. -/
theorem Safe.settles {a : Act ε Unit} (h : Safe good a) : Settles good a (.ok ()) := by
  intro s hs
  obtain ⟨⟨⟩, s', hrun, hs'⟩ := h s hs
  exact ⟨s', hrun, hs'⟩

/-! ### The journal -/

section Journal

variable (hjournal : ∀ s journal, good s → good { s with journal })
include hjournal

theorem settles_note (n : Note) : Settles good (note n) (.ok ()) :=
  settles_modify fun s => hjournal s _

/-- A log line settles where the journal makes no difference. -/
theorem settles_log (level : Level) (message : String) (fields : List (String × String)) :
    Settles good (log level message fields) (.ok ()) :=
  settles_modify fun s => hjournal s _

end Journal

/-- Whether an action runs at all may depend on the journal. -/
theorem Settles.whenKept {a : Act ε Unit} (h : Settles good a (.ok ())) (level : Level) :
    Settles good (whenKept level a) (.ok ()) := by
  refine settles_get_bind fun s hs => ?_
  show ∃ s', (if s.journal.keeps level = true then a else pure ()).run s = _ ∧ _
  split
  · exact h s hs
  · exact ⟨s, rfl, hs⟩

end AdviceWeaver.Act

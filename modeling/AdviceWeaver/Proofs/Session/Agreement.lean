import AdviceWeaver.Proofs.Session.Triples

/-!
# Actions that agree

Two actions agree if it makes no difference, in a good session, which of them is run: the result is the
same, and so is the session that is left, which is good again (`Act.Agree`). `Act.Concur` says besides
that they do not panic. An action that agrees with itself keeps sessions good, even if it panics.

So what an engine does with one way of asking outside is what it does with another one, as long as the
two agree on the questions that are asked.

## Main results

* `Act.Agree.bind`, `Act.Concur.bind` — actions in sequence.
* `Act.Agree.attempt` — a panic that is caught.
* `Act.Concur.mapM`, `Act.Concur.filterMapM`, `Act.Concur.forM` — actions for the items of a list.
-/

namespace AdviceWeaver.Act

variable {ε α β : Type} {good : Session ε → Prop} {a b : Act ε α} {f g : α → Act ε β}
  {s : Session ε}

/-- Started in a good session, both actions come to the same result in the same good session. -/
def Agree (good : Session ε → Prop) (a b : Act ε α) : Prop :=
  ∀ s, good s → a.run s = b.run s ∧ good (a.run s).2

/-- Started in a good session, both actions come to the same result in the same good session, and
neither of them panics. -/
def Concur (good : Session ε → Prop) (a b : Act ε α) : Prop :=
  ∀ s, good s → ∃ x s', a.run s = (.ok x, s') ∧ b.run s = (.ok x, s') ∧ good s'

/-! ### Actions that may panic -/

/-- Actions that concur agree. -/
theorem Concur.agree (h : Concur good a b) : Agree good a b := by
  intro s hs
  obtain ⟨x, s', hrun, hrun', hs'⟩ := h s hs
  rw [hrun, hrun']
  exact ⟨rfl, hs'⟩

/-- A safe action concurs with itself. -/
theorem Safe.concur (h : Safe good a) : Concur good a a := by
  intro s hs
  obtain ⟨x, s', hrun, hs'⟩ := h s hs
  exact ⟨x, s', hrun, hrun, hs'⟩

/-- An action that concurs with another one is safe. -/
theorem Concur.safe (h : Concur good a b) : Safe good a := by
  intro s hs
  obtain ⟨x, s', hrun, -, hs'⟩ := h s hs
  exact ⟨x, s', hrun, hs'⟩

/-- An action that settles agrees with itself. -/
theorem Settles.agree {v : Except Panic α} (h : Settles good a v) : Agree good a a := by
  intro s hs
  obtain ⟨s', hrun, hs'⟩ := h s hs
  rw [hrun]
  exact ⟨rfl, hs'⟩

/-- Agreement goes both ways. -/
theorem Agree.symm (h : Agree good a b) : Agree good b a := by
  intro s hs
  obtain ⟨heq, hgood⟩ := h s hs
  exact ⟨heq.symm, heq ▸ hgood⟩

/-- Agreement goes on through an action in between. -/
theorem Agree.trans {c : Act ε α} (hab : Agree good a b) (hbc : Agree good b c) :
    Agree good a c :=
  fun s hs => ⟨(hab s hs).1.trans (hbc s hs).1, (hab s hs).2⟩

/-- What one of two actions comes to, the other one does. -/
theorem Agree.settles {v : Except Panic α} (h : Agree good a b) (hb : Settles good b v) :
    Settles good a v := by
  intro s hs
  obtain ⟨s', hrun, hs'⟩ := hb s hs
  exact ⟨s', (h s hs).1.trans hrun, hs'⟩

/-- After an action with one result, only what is done with this result matters. -/
theorem Settles.agree_bind {x : α} (ha : Settles good a (.ok x)) (hf : Agree good (f x) (g x)) :
    Agree good (a >>= f) (a >>= g) := by
  intro s hs
  obtain ⟨s', hrun, hs'⟩ := ha s hs
  rw [run_bind_ok hrun, run_bind_ok hrun]
  exact hf s' hs'

theorem agree_pure (x : α) : Agree good (pure x) (pure x) :=
  (settles_pure x).agree

/-- **Actions in sequence** agree if each of them does. -/
theorem Agree.bind (ha : Agree good a b) (hf : ∀ x, Agree good (f x) (g x)) :
    Agree good (a >>= f) (b >>= g) := by
  intro s hs
  obtain ⟨heq, hgood⟩ := ha s hs
  rcases hrun : a.run s with ⟨p | x, s'⟩
  · rw [run_bind_error hrun, run_bind_error (heq ▸ hrun)]
    rw [hrun] at hgood
    exact ⟨rfl, hgood⟩
  · rw [run_bind_ok hrun, run_bind_ok (heq ▸ hrun)]
    rw [hrun] at hgood
    exact hf x s' hgood

/-- An attempt tells how the action ended, a panic included. -/
theorem run_attempt {v : Except Panic α} {s' : Session ε} (h : a.run s = (v, s')) :
    (attempt a).run s = (.ok v, s') := by
  show ((.ok (a.run s).1, (a.run s).2) : Except Panic (Except Panic α) × Session ε) = _
  rw [h]

/-- **A panic that is caught** is a result like any other. -/
theorem Agree.attempt (h : Agree good a b) : Concur good (attempt a) (attempt b) := by
  intro s hs
  obtain ⟨heq, hgood⟩ := h s hs
  exact ⟨(a.run s).1, (a.run s).2, rfl, run_attempt heq.symm, hgood⟩

/-- What is read from the session may decide how an action goes on. -/
theorem agree_get_bind {f g : Session ε → Act ε β}
    (h : ∀ s, good s → (f s).run s = (g s).run s ∧ good ((f s).run s).2) :
    Agree good (get >>= f) (get >>= g) :=
  h

theorem agree_get : Agree good (get : Act ε (Session ε)) get :=
  fun _ hs => ⟨rfl, hs⟩

/-! ### Actions that do not panic -/

theorem concur_pure (x : α) : Concur good (pure x) (pure x) :=
  (settles_pure x).safe.concur

/-- Sequences concur if their steps do. -/
theorem Concur.bind (ha : Concur good a b) (hf : ∀ x, Concur good (f x) (g x)) :
    Concur good (a >>= f) (b >>= g) := by
  intro s hs
  obtain ⟨x, s', hrun, hrun', hs'⟩ := ha s hs
  obtain ⟨y, s'', hf, hg, hs''⟩ := hf x s' hs'
  exact ⟨y, s'', (run_bind_ok hrun).trans hf, (run_bind_ok hrun').trans hg, hs''⟩

/-- Whether an action runs at all may depend on the journal. -/
theorem Concur.whenKept {a b : Act ε Unit} (h : Concur good a b) (level : Level) :
    Concur good (whenKept level a) (whenKept level b) := by
  intro s hs
  show ∃ x s', (if s.journal.keeps level = true then a else pure ()).run s = _
    ∧ (if s.journal.keeps level = true then b else pure ()).run s = _ ∧ _
  split
  · exact h s hs
  · exact ⟨(), s, rfl, rfl, hs⟩

/-- Actions that agree still do where they are done only at a level that is kept. -/
theorem Agree.whenKept {a b : Act ε Unit} (h : Agree good a b) (level : Level) :
    Agree good (Act.whenKept level a) (Act.whenKept level b) := by
  refine agree_get_bind fun s hs => ?_
  show (if s.journal.keeps level = true then a else pure ()).run s
      = (if s.journal.keeps level = true then b else pure ()).run s
    ∧ good ((if s.journal.keeps level = true then a else pure ()).run s).2
  split
  · exact h s hs
  · exact ⟨rfl, hs⟩

/-! ### Lists -/

/-- Doing something for each item concurs if it does for every item. -/
theorem Concur.forM {f g : α → Act ε Unit} (h : ∀ x, Concur good (f x) (g x)) (items : List α) :
    Concur good (items.forM f) (items.forM g) := by
  induction items with
  | nil => exact concur_pure ()
  | cons x rest ih => exact (h x).bind fun _ => ih

/-- Filtering concurs if it does for every item, by induction along the loop of the library. -/
theorem Concur.filterMapM {f g : α → Act ε (Option β)} (h : ∀ x, Concur good (f x) (g x))
    (items : List α) : Concur good (items.filterMapM f) (items.filterMapM g) := by
  have hloop (done : List β) :
      Concur good (List.filterMapM.loop f items done) (List.filterMapM.loop g items done) := by
    induction items generalizing done with
    | nil => exact concur_pure _
    | cons x rest ih =>
      refine (h x).bind fun found => ?_
      cases found with
      | none => exact ih done
      | some y => exact ih (y :: done)
  exact hloop []

/-- Answering each item is safe if it is safe for every item. -/
theorem Safe.mapM {f : α → Act ε β} (h : ∀ x, Safe good (f x)) (items : List α) :
    Safe good (items.mapM f) := by
  induction items with
  | nil => exact (settles_pure []).safe
  | cons x rest ih =>
    rw [List.mapM_cons]
    exact (h x).bind fun y => ih.bind fun ys => (settles_pure (y :: ys)).safe

end AdviceWeaver.Act

import Mathlib.Data.List.Forall2

/-!
# Actions in sequence

When a sequence of actions that may fail succeeds: every single one does, each on what the ones
before it gave. For actions run over a list, the results belong to the items in order.

## Main results

* `except_bind_eq_ok` — a sequence of two succeeds exactly if both do.
* `mapM_eq_ok_iff` — an action succeeds on all items of a list exactly if the results are those on
  the single items.
* `mapM_eq_error_iff`, `foldlM_eq_error_iff` — it fails on a list as it does on the first item on which
  it fails.
* `mapM_keeps` — what single actions on a state keep is kept by all of them in a row.
-/

namespace AdviceWeaver

section Except

variable {ε α β : Type}

/-- A sequence of two actions succeeds exactly if both do. -/
@[simp] theorem except_bind_eq_ok {x : Except ε α} {f : α → Except ε β} {b : β} :
    x >>= f = .ok b ↔ ∃ a, x = .ok a ∧ f a = .ok b := by
  cases x with
  | error e => simp [bind, Except.bind]
  | ok a => simp [bind, Except.bind]

@[simp] theorem except_pure_eq_ok {a b : α} : (pure a : Except ε α) = .ok b ↔ a = b := by
  simp [pure, Except.pure]

@[simp] theorem except_throw_eq_ok {e : ε} {b : α} : (throw e : Except ε α) = .ok b ↔ False := by
  simp [throw, throwThe, MonadExceptOf.throw]

/-- A result through a function is the function of a result. -/
@[simp] theorem except_map_eq_ok {x : Except ε α} {f : α → β} {b : β} :
    f <$> x = .ok b ↔ ∃ a, x = .ok a ∧ f a = b := by
  cases x with
  | error e => simp [Functor.map, Except.map]
  | ok a => simp [Functor.map, Except.map]

/-- What is no failure has a result. -/
theorem exists_of_isOk {x : Except ε α} (h : x.isOk = true) : ∃ a, x = .ok a := by
  cases x with
  | error e => cases h
  | ok a => exact ⟨a, rfl⟩

/-- An action succeeds on all items of a list exactly if the results are those on the single
items. -/
theorem mapM_eq_ok_iff {f : α → Except ε β} {items : List α} {results : List β} :
    items.mapM f = .ok results ↔ List.Forall₂ (fun a b => f a = .ok b) items results := by
  induction items generalizing results with
  | nil => rw [List.mapM_nil, except_pure_eq_ok, List.forall₂_nil_left_iff, eq_comm]
  | cons a rest ih =>
    rw [List.mapM_cons, except_bind_eq_ok, List.forall₂_cons_left_iff]
    constructor
    · rintro ⟨b, hb, h⟩
      obtain ⟨more, hmore, h⟩ := except_bind_eq_ok.1 h
      exact ⟨b, more, hb, ih.1 hmore, (except_pure_eq_ok.1 h).symm⟩
    · rintro ⟨b, more, hb, hmore, rfl⟩
      exact ⟨b, hb, except_bind_eq_ok.2 ⟨more, ih.2 hmore, rfl⟩⟩

/-- Results in a row are those of the items, one by one. -/
theorem map_eq_of_mapM_eq_ok {f : α → Except ε β} {items : List α} {results : List β}
    (h : items.mapM f = .ok results) : items.map f = results.map .ok := by
  rw [← List.forall₂_eq_eq_eq, List.forall₂_map_left_iff, List.forall₂_map_right_iff]
  exact mapM_eq_ok_iff.1 h

/-- A sequence of two actions fails exactly if the first one does, or the second one on what the
first one gave. -/
theorem except_bind_eq_error {x : Except ε α} {f : α → Except ε β} {e : ε} :
    x >>= f = .error e ↔ x = .error e ∨ ∃ a, x = .ok a ∧ f a = .error e := by
  cases x with
  | error e' => simp [bind, Except.bind]
  | ok a => simp [bind, Except.bind]

/-- A function of the result does not fail. -/
theorem except_bind_pure_eq_error {x : Except ε α} {f : α → β} {e : ε} :
    (x >>= fun a => pure (f a)) = .error e ↔ x = .error e := by
  cases x with
  | error e' => simp [bind, Except.bind]
  | ok a => simp [bind, Except.bind, pure, Except.pure]

/-- Actions on the items of a list fail as the first one does that fails. -/
theorem mapM_eq_error_iff {f : α → Except ε β} {items : List α} {e : ε} :
    items.mapM f = .error e ↔ ∃ before a after, items = before ++ a :: after
      ∧ (∀ b ∈ before, ∃ result, f b = .ok result) ∧ f a = .error e := by
  induction items with
  | nil =>
    constructor
    · intro h
      cases h
    · rintro ⟨before, a, after, h, -⟩
      cases before <;> cases h
  | cons a rest ih =>
    rw [List.mapM_cons, except_bind_eq_error]
    simp only [except_bind_pure_eq_error]
    constructor
    · rintro (ha | ⟨result, hresult, h⟩)
      · exact ⟨[], a, rest, rfl, nofun, ha⟩
      · obtain ⟨before, a', after, rfl, hbefore, ha'⟩ := ih.1 h
        exact ⟨a :: before, a', after, rfl,
          List.forall_mem_cons.2 ⟨⟨result, hresult⟩, hbefore⟩, ha'⟩
    · rintro ⟨before, a', after, hitems, hbefore, ha'⟩
      cases before with
      | nil =>
        cases hitems
        exact .inl ha'
      | cons _ before =>
        cases hitems
        obtain ⟨⟨result, hresult⟩, hbefore⟩ := List.forall_mem_cons.1 hbefore
        exact .inr ⟨result, hresult, ih.2 ⟨before, a', after, rfl, hbefore, ha'⟩⟩

/-- When actions on the items of a list fail, one of them does, and in the same way. -/
theorem exists_of_mapM_eq_error {f : α → Except ε β} {items : List α} {e : ε}
    (h : items.mapM f = .error e) : ∃ a ∈ items, f a = .error e := by
  obtain ⟨before, a, after, rfl, -, ha⟩ := mapM_eq_error_iff.1 h
  exact ⟨a, by simp, ha⟩

/-- Some item fails exactly if answering them all does. -/
theorem exists_mapM_eq_error_iff {f : α → Except ε β} {items : List α} :
    (∃ e, items.mapM f = .error e) ↔ ∃ a ∈ items, ∃ e, f a = .error e := by
  constructor
  · rintro ⟨e, h⟩
    obtain ⟨a, ha, he⟩ := exists_of_mapM_eq_error h
    exact ⟨a, ha, e, he⟩
  · rintro ⟨a, ha, e, he⟩
    cases h : items.mapM f with
    | error e' => exact ⟨e', rfl⟩
    | ok results =>
      obtain ⟨i, hi, rfl⟩ := List.getElem_of_mem ha
      have hall := mapM_eq_ok_iff.1 h
      have hok := hall.get hi (hall.length_eq ▸ hi)
      rw [List.get_eq_getElem, he] at hok
      cases hok

/-- Further items make no difference once one has failed. -/
theorem mapM_append_of_eq_error {f : α → Except ε β} {items : List α} {e : ε}
    (h : items.mapM f = .error e) (more : List α) : (items ++ more).mapM f = .error e := by
  obtain ⟨before, a, after, rfl, hbefore, ha⟩ := mapM_eq_error_iff.1 h
  exact mapM_eq_error_iff.2 ⟨before, a, after ++ more, by simp, hbefore, ha⟩

/-- **Going through a list** with a result in hand fails as it does at the first item at which it
fails. -/
theorem foldlM_eq_error_iff {f : β → α → Except ε β} {items : List α} {b : β} {e : ε} :
    items.foldlM f b = .error e ↔ ∃ before a after b', items = before ++ a :: after
      ∧ before.foldlM f b = .ok b' ∧ f b' a = .error e := by
  induction items generalizing b with
  | nil =>
    constructor
    · intro h
      cases h
    · rintro ⟨before, a, after, b', h, -⟩
      cases before <;> cases h
  | cons a rest ih =>
    rw [List.foldlM_cons, except_bind_eq_error]
    constructor
    · rintro (ha | ⟨b₁, hb₁, h⟩)
      · exact ⟨[], a, rest, b, rfl, rfl, ha⟩
      · obtain ⟨before, a', after, b', rfl, hbefore, ha'⟩ := ih.1 h
        refine ⟨a :: before, a', after, b', rfl, ?_, ha'⟩
        rw [List.foldlM_cons, hb₁]
        exact hbefore
    · rintro ⟨before, a', after, b', hitems, hbefore, ha'⟩
      cases before with
      | nil =>
        cases hitems
        cases hbefore
        exact .inl ha'
      | cons _ before =>
        cases hitems
        rw [List.foldlM_cons, except_bind_eq_ok] at hbefore
        obtain ⟨b₁, hb₁, hbefore⟩ := hbefore
        exact .inr ⟨b₁, hb₁, ih.2 ⟨before, a', after, b', rfl, hbefore, ha'⟩⟩

end Except

section State

variable {σ ε α β : Type} {s s' : σ}

/-- A sequence of two actions on a state succeeds exactly if both do, the second one on the state
that the first one leaves. -/
theorem bind_eq_ok_iff {m : StateT σ (Except ε) α} {f : α → StateT σ (Except ε) β} {b : β} :
    (m >>= f) s = .ok (b, s') ↔ ∃ a t, m s = .ok (a, t) ∧ f a t = .ok (b, s') := by
  show (m s >>= fun p => f p.1 p.2) = .ok (b, s') ↔ _
  rw [except_bind_eq_ok, Prod.exists]

/-- What is answered leaves the state as it is. -/
theorem pure_eq_ok_iff {a a' : α} :
    (pure a : StateT σ (Except ε) α) s = .ok (a', s') ↔ a = a' ∧ s = s' := by
  show (Except.ok (a, s) : Except ε (α × σ)) = .ok (a', s') ↔ _
  rw [Except.ok.injEq, Prod.mk.injEq]

/-- A computation without state leaves the state as it is. -/
theorem lift_eq_ok_iff {x : Except ε α} {a : α} :
    (liftM x : StateT σ (Except ε) α) s = .ok (a, s') ↔ x = .ok a ∧ s = s' := by
  cases x with
  | error e =>
    constructor
    · intro h
      cases h
    · rintro ⟨h, -⟩
      cases h
  | ok a' =>
    show (Except.ok (a', s) : Except ε (α × σ)) = .ok (a, s') ↔ _
    simp

/-- **Actions on a state** in a row: what every single one keeps is kept by all of them, and what
holds of their results is not lost on the way. -/
theorem mapM_keeps {f : α → StateT σ (Except ε) β} (keeps : σ → Prop) (grows : σ → σ → Prop)
    (holds : α → β → σ → Prop) (hrefl : ∀ s, grows s s)
    (htrans : ∀ s t u, grows s t → grows t u → grows s u)
    (hlast : ∀ a b s t, grows s t → holds a b s → holds a b t)
    (hstep : ∀ a b s t, keeps s → f a s = .ok (b, t) → keeps t ∧ grows s t ∧ holds a b t)
    {items : List α} {results : List β} (hs : keeps s) (h : items.mapM f s = .ok (results, s')) :
    keeps s' ∧ grows s s' ∧ List.Forall₂ (fun a b => holds a b s') items results := by
  induction items generalizing s results with
  | nil =>
    rw [List.mapM_nil] at h
    obtain ⟨rfl, rfl⟩ := pure_eq_ok_iff.1 h
    exact ⟨hs, hrefl s, .nil⟩
  | cons a rest ih =>
    rw [List.mapM_cons] at h
    obtain ⟨b, t, hb, h⟩ := bind_eq_ok_iff.1 h
    obtain ⟨more, u, hmore, h⟩ := bind_eq_ok_iff.1 h
    obtain ⟨rfl, rfl⟩ := pure_eq_ok_iff.1 h
    obtain ⟨ht, hst, hholds⟩ := hstep a b s t hs hb
    obtain ⟨hu, htu, hrest⟩ := ih ht hmore
    exact ⟨hu, htrans s t u hst htu, .cons (hlast a b t u htu hholds) hrest⟩

end State

/-- Results that come, one by one, from items of another kind are the results for a list of these. -/
theorem exists_map_of_forall₂ {α β γ : Type} {R : α → γ → Prop} {S : α → β → Prop} {f : β → γ}
    {items : List α} {results : List γ} (h : List.Forall₂ R items results)
    (hRS : ∀ a c, R a c → ∃ b, c = f b ∧ S a b) :
    ∃ items', results = items'.map f ∧ List.Forall₂ S items items' := by
  induction h with
  | nil => exact ⟨[], rfl, .nil⟩
  | cons hac _ ih =>
    obtain ⟨b, rfl, hab⟩ := hRS _ _ hac
    obtain ⟨rest, rfl, hrest⟩ := ih
    exact ⟨b :: rest, rfl, .cons hab hrest⟩

/-- To an item of one list belongs an item of the other. -/
theorem exists_of_forall₂_left {α β : Type} {R : α → β → Prop} {items : List α} {items' : List β}
    (h : List.Forall₂ R items items') {a : α} (ha : a ∈ items) : ∃ b ∈ items', R a b := by
  induction h with
  | nil => cases ha
  | @cons a' b' _ _ hab _ ih =>
    obtain rfl | ha := List.mem_cons.1 ha
    · exact ⟨b', List.mem_cons_self, hab⟩
    · obtain ⟨b, hb, hab⟩ := ih ha
      exact ⟨b, List.mem_cons_of_mem b' hb, hab⟩

/-- A right item in a relation of lists has a left one. -/
theorem exists_of_forall₂_right {α β : Type} {R : α → β → Prop} {items : List α}
    {items' : List β} (h : List.Forall₂ R items items') {b : β} (hb : b ∈ items') :
    ∃ a ∈ items, R a b :=
  exists_of_forall₂_left h.flip hb

/-- Lists whose items agree under two functions are mapped to the same list. -/
theorem map_eq_map_of_forall₂ {α β γ : Type} {R : α → β → Prop} {f : α → γ} {g : β → γ}
    {items : List α} {items' : List β} (h : List.Forall₂ R items items')
    (hfg : ∀ a b, R a b → f a = g b) : items.map f = items'.map g := by
  induction h with
  | nil => rfl
  | cons hab _ ih => rw [List.map_cons, List.map_cons, hfg _ _ hab, ih]

/-- Items that belong together by way of a third list. -/
theorem forall₂_comp {α β γ : Type} {R : α → β → Prop} {S : β → γ → Prop} {T : α → γ → Prop}
    {as : List α} {bs : List β} {cs : List γ} (h : List.Forall₂ R as bs)
    (h' : List.Forall₂ S bs cs) (hcomp : ∀ a b c, R a b → S b c → T a c) :
    List.Forall₂ T as cs := by
  induction h generalizing cs with
  | nil =>
    cases h'
    exact .nil
  | cons hab _ ih =>
    obtain ⟨c, rest, hbc, hrest, rfl⟩ := List.forall₂_cons_left_iff.1 h'
    exact .cons (hcomp _ _ _ hab hbc) (ih hrest)

/-- What belongs to lists in a row is lists in a row. -/
theorem exists_of_forall₂_append {α β : Type} {R : α → β → Prop} {front back : List α}
    {items : List β} (h : List.Forall₂ R (front ++ back) items) :
    ∃ front' back', items = front' ++ back' ∧ List.Forall₂ R front front'
      ∧ List.Forall₂ R back back' := by
  induction front generalizing items with
  | nil => exact ⟨[], items, rfl, .nil, h⟩
  | cons a rest ih =>
    obtain ⟨b, more, hab, hmore, rfl⟩ := List.forall₂_cons_left_iff.1 h
    obtain ⟨front', back', rfl, hfront, hback⟩ := ih hmore
    exact ⟨b :: front', back', rfl, .cons hab hfront, hback⟩

end AdviceWeaver

import AdviceWeaver.Proofs.Session.Outcomes

/-!
# What actions ensure

A program is often only looked at as far as it gets: if an action is started in a session of which
something holds and does not panic, then something holds of its result and of the session it leaves
(`Act.Ensures`). `Act.Returns` says more: that the action does not panic either.

## Main results

* `Act.Ensures.bind`, `Act.Returns.bind` — actions in sequence.
* `Act.ensures_forM` — actions for the items of a list, by what holds while some of them are left.
-/

namespace AdviceWeaver.Act

variable {ε α β : Type} {before after : Session ε → Prop} {a : Act ε α} {f : α → Act ε β}
  {s s' : Session ε}

/-- Started in a session of which `before` holds, the action panics or leaves a session of which, with
its result, `post` holds. -/
def Ensures (before : Session ε → Prop) (a : Act ε α) (post : α → Session ε → Prop) : Prop :=
  ∀ s, before s → ∀ x s', a.run s = (.ok x, s') → post x s'

/-- Started in a session of which `before` holds, the action leaves a session of which, with its
result, `post` holds. -/
def Returns (before : Session ε → Prop) (a : Act ε α) (post : α → Session ε → Prop) : Prop :=
  ∀ s, before s → ∃ x s', a.run s = (.ok x, s') ∧ post x s'

/-! ### Sequences -/

/-- A sequence that succeeded had a first action that succeeded, and went on from there. -/
theorem exists_of_run_bind {y : β} (h : (a >>= f).run s = (.ok y, s')) :
    ∃ x s₁, a.run s = (.ok x, s₁) ∧ (f x).run s₁ = (.ok y, s') := by
  rcases hrun : a.run s with ⟨p | x, s₁⟩
  · rw [run_bind_error hrun] at h
    cases h
  · rw [run_bind_ok hrun] at h
    exact ⟨x, s₁, rfl, h⟩

/-- An action that only answers leaves the session as it was. -/
theorem ensures_pure (x : α) : Ensures before (pure x) fun y s => y = x ∧ before s := by
  intro s hs y s' h
  cases h
  exact ⟨rfl, hs⟩

/-- **Actions in sequence:** what the first one ensures is where the second one starts. -/
theorem Ensures.bind {mid : α → Session ε → Prop} {post : β → Session ε → Prop}
    (ha : Ensures before a mid) (hf : ∀ x, Ensures (mid x) (f x) post) :
    Ensures before (a >>= f) post := by
  intro s hs y s' h
  obtain ⟨x, s₁, hrun, hrest⟩ := exists_of_run_bind h
  exact hf x s₁ (ha s hs x s₁ hrun) y s' hrest

/-- Less may be ensured than is. -/
theorem Ensures.mono {post post' : α → Session ε → Prop} (h : Ensures before a post)
    (hpost : ∀ x s, post x s → post' x s) : Ensures before a post' :=
  fun s hs x s' hrun => hpost x s' (h s hs x s' hrun)

/-- An action that only answers returns what holds of its answer beforehand. -/
theorem returns_pure {post : α → Session ε → Prop} {x : α} (h : ∀ s, before s → post x s) :
    Returns before (pure x) post :=
  fun s hs => ⟨x, s, rfl, h s hs⟩

/-- Sequences are proved step by step, with what holds in between. -/
theorem Returns.bind {mid : α → Session ε → Prop} {post : β → Session ε → Prop}
    (ha : Returns before a mid) (hf : ∀ x, Returns (mid x) (f x) post) :
    Returns before (a >>= f) post := by
  intro s hs
  obtain ⟨x, s₁, hrun, hs₁⟩ := ha s hs
  obtain ⟨y, s', hrun', hs'⟩ := hf x s₁ hs₁
  exact ⟨y, s', (run_bind_ok hrun).trans hrun', hs'⟩

/-- An action after one that may be left out. -/
theorem Returns.ite_then {mid : Session ε → Prop} {post : β → Session ε → Prop} {c : Bool}
    {a : Act ε Unit} {b : Act ε β} (ha : Returns before (if c then a else pure ()) fun _ => mid)
    (hb : Returns mid b post) : Returns before (if c then a >>= fun _ => b else b) post := by
  cases c with
  | false => exact ha.bind fun _ => hb
  | true => exact ha.bind fun _ => hb

/-- An action that returns ensures the same. -/
theorem Returns.ensures {post : α → Session ε → Prop} (h : Returns before a post) :
    Ensures before a post := by
  intro s hs x s' hrun
  obtain ⟨y, s₁, hrun', hs₁⟩ := h s hs
  rw [hrun'] at hrun
  cases hrun
  exact hs₁

/-- More may be asked beforehand and less be said afterwards. -/
theorem Returns.mono {before' : Session ε → Prop} {post post' : α → Session ε → Prop}
    (h : Returns before a post) (hbefore : ∀ s, before' s → before s)
    (hpost : ∀ x s, post x s → post' x s) : Returns before' a post' := by
  intro s hs
  obtain ⟨x, s', hrun, hs'⟩ := h s (hbefore s hs)
  exact ⟨x, s', hrun, hpost x s' hs'⟩

/-- What is ensured as far as an action gets is so in the end, if the action does not panic. -/
theorem Returns.of_ensures {post post' : α → Session ε → Prop} (h : Returns before a post)
    (hensures : Ensures before a post') : Returns before a post' := by
  intro s hs
  obtain ⟨x, s', hrun, -⟩ := h s hs
  exact ⟨x, s', hrun, hensures s hs x s' hrun⟩

/-- Nothing is asked of an action that nothing depends on. -/
theorem ensures_true : Ensures before a fun _ _ => True :=
  fun _ _ _ _ _ => trivial

/-! ### Settled and safe actions -/

/-- A settled action ensures its answer and a session as good as before. -/
theorem Settles.ensures {x : α} (h : Settles before a (.ok x)) :
    Ensures before a fun y s => y = x ∧ before s := by
  intro s hs y s' hrun
  obtain ⟨s₁, hrun', hs₁⟩ := h s hs
  rw [hrun'] at hrun
  cases hrun
  exact ⟨rfl, hs₁⟩

/-- Safe actions return and keep what holds. -/
theorem Safe.returns (h : Safe before a) : Returns before a fun _ => before :=
  h

theorem Safe.ensures (h : Safe before a) : Ensures before a fun _ => before :=
  h.returns.ensures

/-! ### Lists -/

/-- **Actions for the items of a list**, by what holds while some of the items are left. -/
theorem ensures_forM (left : List α → Session ε → Prop) {f : α → Act ε Unit} (items : List α)
    (h : ∀ x rest, Ensures (left (x :: rest)) (f x) fun _ => left rest) :
    Ensures (left items) (items.forM f) fun _ => left [] := by
  induction items with
  | nil => exact (ensures_pure ()).mono fun _ _ hs => hs.2
  | cons x rest ih => exact (h x rest).bind fun _ => ih

/-- Doing something for each item is safe if it is safe for the items there are. -/
theorem Safe.forM {f : α → Act ε Unit} {items : List α} (h : ∀ x ∈ items, Safe before (f x)) :
    Safe before (items.forM f) := by
  induction items with
  | nil => exact (settles_pure ()).safe
  | cons x rest ih =>
    exact (h x List.mem_cons_self).bind fun _ => ih fun y hy => h y (List.mem_cons_of_mem x hy)

/-- Filtering is safe if the test is. -/
theorem Safe.filterM {test : α → Act ε Bool} (h : ∀ x, Safe before (test x)) (items : List α) :
    Safe before (items.filterM test) := by
  have haux (kept : List α) : Safe before (items.filterAuxM test kept) := by
    induction items generalizing kept with
    | nil => exact (settles_pure kept).safe
    | cons x rest ih => exact (h x).bind fun hit => ih _
  exact (haux []).bind fun found => (settles_pure _).safe

/-- Filtering keeps the items that a test says yes to. -/
theorem settles_filterM {test : α → Act ε Bool} {may : α → Bool}
    (h : ∀ x, Settles before (test x) (.ok (may x))) (items : List α) :
    Settles before (items.filterM test) (.ok (items.filter may)) := by
  have haux (kept : List α) : Settles before (items.filterAuxM test kept)
      (.ok ((items.filter may).reverse ++ kept)) := by
    induction items generalizing kept with
    | nil => exact settles_pure kept
    | cons x rest ih =>
      refine (h x).bind ?_
      cases hmay : may x with
      | false =>
        rw [List.filter_cons_of_neg (by simp [hmay])]
        exact ih kept
      | true =>
        rw [List.filter_cons_of_pos hmay, List.reverse_cons, List.append_assoc]
        exact ih (x :: kept)
  refine (haux []).bind ?_
  rw [List.append_nil, List.reverse_reverse]
  exact settles_pure _

/-- The loop that filters keeps the session good, and collects none but items, by induction on those
that are left. -/
theorem ensures_filterAuxM {test : α → Act ε Bool} {items kept : List α}
    (h : ∀ x, Ensures before (test x) fun _ => before) :
    Ensures before (items.filterAuxM test kept) fun found s => before s
      ∧ ∀ x ∈ found, x ∈ items ∨ x ∈ kept := by
  induction items generalizing kept with
  | nil =>
    refine (ensures_pure kept).mono fun found s hs => ⟨hs.2, fun x hx => .inr ?_⟩
    rw [← hs.1]
    exact hx
  | cons first rest ih =>
    refine (h first).bind fun hit => ?_
    cases hit with
    | false =>
      refine ih.mono fun found s hs => ⟨hs.1, fun x hx => ?_⟩
      rcases hs.2 x hx with hrest | hkept
      · exact .inl (List.mem_cons_of_mem first hrest)
      · exact .inr hkept
    | true =>
      refine ih.mono fun found s hs => ⟨hs.1, fun x hx => ?_⟩
      rcases hs.2 x hx with hrest | hkept
      · exact .inl (List.mem_cons_of_mem first hrest)
      · rcases List.mem_cons.1 hkept with rfl | hkept
        · exact .inl List.mem_cons_self
        · exact .inr hkept

/-- Filtering brings in no items. -/
theorem ensures_filterM {test : α → Act ε Bool} {items : List α}
    (h : ∀ x, Ensures before (test x) fun _ => before) :
    Ensures before (items.filterM test) fun found s => before s ∧ ∀ x ∈ found, x ∈ items := by
  refine (ensures_filterAuxM h).bind fun found s hs ys s' hrun => ?_
  cases hrun
  refine ⟨hs.1, fun x hx => ?_⟩
  rcases hs.2 x (List.mem_reverse.1 hx) with hitems | hnil
  · exact hitems
  · cases hnil

end AdviceWeaver.Act

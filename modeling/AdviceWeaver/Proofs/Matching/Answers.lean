import AdviceWeaver.Matching.Evaluation
import AdviceWeaver.Proofs.Matching.Lookup

/-!
# What matchers answer

However a matcher is composed, it comes to the same end whenever it is asked about a target: to an
answer, a failure or a panic. So its answer can be spoken of without saying when it was asked, and
asking one matcher changes nothing for another.

What is said of one class is said of several at once here, which have loaders in common but pools of
their own. A matcher tells them apart only if it looks at the number of a pool
(`Matcher.IsSteady`).

## Main results

* `Matcher.exists_settles_eval` — the answer of a matcher is the same whenever it is asked.
* `Matcher.exists_settles_eval_boundTo` — it is also the same wherever the target is bound, if the
  matcher is steady.
-/

namespace AdviceWeaver

open Act

variable {ε : Type} {ops : LoaderOps ε} {fits : ε → Prop}

/-! ### Targets and where they are bound -/

namespace Target

/-- A type that lives where the class does; methods and loaders live anywhere. -/
def LivesAt (home : Option Home) : {k : Kind} → Target k → Prop
  | .type, t => TypeDescription.LivesAt home t
  | .method, _ => True
  | .loader, _ => True

/-- The target, bound to the pool of a class if it is bound at all. -/
def boundTo (home : Option Home) : {k : Kind} → Target k → Target k
  | .type, t => TypeDescription.boundTo home t
  | .method, m => m
  | .loader, l => l

variable {home : Option Home} {k : Kind}

/-- A target that lives at a home is bound there already. -/
theorem LivesAt.boundTo_eq {t : Target k} (ht : t.LivesAt home) : t.boundTo home = t := by
  cases k with
  | type => exact TypeDescription.LivesAt.boundTo_eq ht
  | method => rfl
  | loader => rfl

@[simp] theorem name_boundTo (t : Target k) : (t.boundTo home).name = t.name := by
  cases k <;> rfl

@[simp] theorem modifiers_boundTo (t : Target k) : (t.boundTo home).modifiers = t.modifiers := by
  cases k <;> rfl

@[simp] theorem annotations_boundTo (t : Target k) :
    (t.boundTo home).annotations = t.annotations := by
  cases k <;> rfl

end Target

namespace Matcher

/-- How the evaluation of a matcher ends in a session. -/
def verdict (ops : LoaderOps ε) (s : Session ε) {k : Kind} (m : Matcher k) (t : Target k) :
    Except Panic Answer :=
  ((m.eval ops t).run s).1

/-- Whether a matcher answers with yes in a session. -/
def agrees (ops : LoaderOps ε) (s : Session ε) {k : Kind} (m : Matcher k) (t : Target k) : Bool :=
  match m.verdict ops s t with
  | .ok (.ok hit) => hit
  | _ => false

/-- What comes from outside judges a target without regard to which of some homes it is bound to. -/
def IsSteady (homes : Option Home → Prop) : {k : Kind} → Matcher k → Prop
  | _, .not m => m.IsSteady homes
  | _, .and m n => m.IsSteady homes ∧ n.IsSteady homes
  | _, .or m n => m.IsSteady homes ∧ n.IsSteady homes
  | k, .custom _ judge => ∀ (t : Target k) (home home' : Option Home), homes home → homes home' →
    judge (t.boundTo home) = judge (t.boundTo home')
  | _, .hasSuperType m => m.IsSteady homes
  | _, .declaresMethod m => m.IsSteady homes
  | _, _ => True

/-- Nothing needs to be asked of a matcher if there is one home only. -/
theorem isSteady_singleton (home : Option Home) {k : Kind} (m : Matcher k) :
    m.IsSteady (· = home) := by
  induction m with
  | not m ih => exact ih
  | and m n ihm ihn => exact ⟨ihm, ihn⟩
  | or m n ihm ihn => exact ⟨ihm, ihn⟩
  | custom label judge =>
    rintro t _ _ rfl rfl
    rfl
  | hasSuperType m ih => exact ih
  | declaresMethod m ih => exact ih
  | _ => exact trivial

/-- A matcher that is steady among some homes is so among fewer. -/
theorem IsSteady.mono {homes homes' : Option Home → Prop} {k : Kind} {m : Matcher k}
    (hm : m.IsSteady homes) (h : ∀ home, homes' home → homes home) : m.IsSteady homes' := by
  induction m with
  | not m ih => exact ih hm
  | and m n ihm ihn => exact ⟨ihm hm.1, ihn hm.2⟩
  | or m n ihm ihn => exact ⟨ihm hm.1, ihn hm.2⟩
  | custom label judge =>
    intro t home home' hhome hhome'
    exact hm t home home' (h home hhome) (h home' hhome')
  | hasSuperType m ih => exact ih hm
  | declaresMethod m ih => exact ih hm
  | _ => exact trivial

/-! ### Families of actions -/

section Family

variable {ι α : Type} {good : ι → Session ε → Prop}

/-- Actions of a family settle alike in a sequence if both of its steps do. -/
theorem exists_forall_settles_bind {β : Type} {a : ι → Act ε α} {f : ι → α → Act ε β}
    (ha : ∃ v, ∀ i, Settles (good i) (a i) v) (hf : ∀ x, ∃ w, ∀ i, Settles (good i) (f i x) w) :
    ∃ w, ∀ i, Settles (good i) (a i >>= f i) w := by
  rcases ha with ⟨p | x, hv⟩
  · exact ⟨.error p, fun i => (hv i).bind_error⟩
  · obtain ⟨w, hw⟩ := hf x
    exact ⟨w, fun i => (hv i).bind (hw i)⟩

/-- The results of the first actions may differ, if the second ones make up for it. -/
theorem exists_forall_settles_bind_ok {β : Type} {a : ι → Act ε α} {f : ι → α → Act ε β} {x : ι → α}
    (ha : ∀ i, Settles (good i) (a i) (.ok (x i)))
    (hf : ∃ w, ∀ i, Settles (good i) (f i (x i)) w) :
    ∃ w, ∀ i, Settles (good i) (a i >>= f i) w := by
  obtain ⟨w, hw⟩ := hf
  exact ⟨w, fun i => (ha i).bind (hw i)⟩

/-- Actions of a family that only answer settle alike. -/
theorem exists_forall_settles_pure (x : α) :
    ∃ v, ∀ i, Settles (good i) (pure x : Act ε α) v :=
  ⟨_, fun _ => settles_pure x⟩

/-! ### Searching -/

/-- Tests of some items settle alike if each of them does, by induction on the items. -/
theorem exists_settles_anyOf {test : α → Act ε Answer} {items : List α}
    (h : ∀ a ∈ items, ∃ v, ∀ i, Settles (good i) (test a) v) :
    ∃ v, ∀ i, Settles (good i) (anyOf test items) v := by
  induction items with
  | nil => exact exists_forall_settles_pure _
  | cons a rest ih =>
    refine exists_forall_settles_bind (h a List.mem_cons_self) fun answer => ?_
    rcases answer with e | _ | _
    · exact exists_forall_settles_pure _
    · exact ih fun b hb => h b (List.mem_cons_of_mem a hb)
    · exact exists_forall_settles_pure _

/-- A judgement is accepted alike, with a note or without. -/
theorem exists_settles_accept (hjournal : ∀ i s journal, good i s → good i { s with journal })
    (j : Judgement) : ∃ v, ∀ i, Settles (good i) (accept j : Act ε Answer) v := by
  obtain ⟨note?, verdict⟩ := j
  cases note? with
  | none =>
    cases verdict with
    | answer hit => exact exists_forall_settles_pure _
    | failed cause => exact exists_forall_settles_pure _
    | panicked => exact ⟨_, fun i => settles_panic⟩
  | some text =>
    have hnote (i : ι) : Settles (good i) (note (.text text)) (.ok ()) :=
      settles_note (hjournal i) (.text text)
    cases verdict with
    | answer hit => exact ⟨_, fun i => (hnote i).bind (settles_pure _)⟩
    | failed cause => exact ⟨_, fun i => (hnote i).bind (settles_pure _)⟩
    | panicked => exact ⟨_, fun i => (hnote i).bind settles_panic⟩

section Above

variable (home : ι → Option Home) {t : TypeDescription} {test : TypeDescription → Act ε Answer}
  (hresolve : ∀ name, ∃ v : Except Panic (Except MatchError TypeDescription), ∀ i,
    Settles (good i) ((t.boundTo (home i)).resolve ops name)
      (v.map fun answer => answer.map (TypeDescription.boundTo (home i))))
  (htest : ∀ u : TypeDescription, ∃ v, ∀ i, Settles (good i) (test (u.boundTo (home i))) v)
include hresolve htest

/-- Searching above a type has one outcome, if each name that is seen from it has one answer. -/
theorem exists_settles_searchAbove (limit : Nat) (f : Frontier) :
    ∃ v, ∀ i, Settles (good i) (searchAbove ops (t.boundTo (home i)) test limit f) v := by
  induction limit generalizing f with
  | zero => exact exists_forall_settles_pure _
  | succ limit ih =>
    unfold searchAbove
    split
    · exact exists_forall_settles_pure _
    · next next rest _ =>
      obtain ⟨v, hv⟩ := hresolve next
      rcases v with p | e | u
      · exact ⟨_, fun i => (hv i).bind_error⟩
      · exact ⟨_, fun i => (hv i).bind (settles_pure _)⟩
      · refine exists_forall_settles_bind_ok hv ?_
        refine exists_forall_settles_bind (htest u) fun answer => ?_
        rcases answer with e | _ | _
        · exact exists_forall_settles_pure _
        · exact ih ((Frontier.mk f.seen rest).add u)
        · exact exists_forall_settles_pure _

/-- A search of the hierarchy settles alike, as it has the same bound in every session. -/
theorem exists_settles_searchHierarchy
    (hlimit : ∃ n, ∀ i, Settles (good i) ((t.boundTo (home i)).stepLimit ops) (.ok n)) :
    ∃ v, ∀ i, Settles (good i) (searchHierarchy ops (t.boundTo (home i)) test) v := by
  refine exists_forall_settles_bind (htest t) fun answer => ?_
  rcases answer with e | _ | _
  · exact exists_forall_settles_pure _
  · obtain ⟨n, hn⟩ := hlimit
    obtain ⟨v, hv⟩ := exists_settles_searchAbove home hresolve htest n (.above t)
    exact ⟨v, fun i => (hn i).bind (hv i)⟩
  · exact exists_forall_settles_pure _

end Above

/-! ### Evaluating -/

/-- A matcher has one answer, if searching above a type has. That does not matter for matchers of
methods and of loaders. -/
theorem exists_settles_eval_of (hjournal : ∀ i s journal, good i s → good i { s with journal })
    (home : ι → Option Home) {k : Kind} (m : Matcher k)
    (hsearch : k = .type → ∀ (t : TypeDescription) (test : TypeDescription → Act ε Answer),
      (∀ u : TypeDescription, ∃ v, ∀ i, Settles (good i) (test (u.boundTo (home i))) v) →
      ∃ v, ∀ i, Settles (good i) (searchHierarchy ops (t.boundTo (home i)) test) v)
    (hm : m.IsSteady fun h => ∃ i, home i = h) (t : Target k) :
    ∃ v, ∀ i, Settles (good i) (m.eval ops (t.boundTo (home i))) v := by
  induction m with
  | constant value => exact exists_forall_settles_pure _
  | not m ih =>
    refine exists_forall_settles_bind (ih hsearch hm t) fun answer => ?_
    rcases answer with e | hit
    · exact exists_forall_settles_pure _
    · exact exists_forall_settles_pure _
  | and m n ihm ihn =>
    refine exists_forall_settles_bind (ihm hsearch hm.1 t) fun answer => ?_
    rcases answer with e | _ | _
    · exact exists_forall_settles_pure _
    · exact exists_forall_settles_pure _
    · exact ihn hsearch hm.2 t
  | or m n ihm ihn =>
    refine exists_forall_settles_bind (ihm hsearch hm.1 t) fun answer => ?_
    rcases answer with e | _ | _
    · exact exists_forall_settles_pure _
    · exact ihn hsearch hm.2 t
    · exact exists_forall_settles_pure _
  | name test text =>
    simp only [eval, Target.name_boundTo]
    exact exists_forall_settles_pure _
  | modifier modifier =>
    simp only [eval, Target.modifiers_boundTo]
    exact exists_forall_settles_pure _
  | annotated type =>
    simp only [eval, Target.annotations_boundTo]
    exact exists_forall_settles_pure _
  | custom label judge =>
    -- Only a judgement from outside may look at where a type is bound, and it is steady.
    by_cases hsome : Nonempty ι
    · obtain ⟨j⟩ := hsome
      obtain ⟨v, hv⟩ := exists_settles_accept hjournal (judge (t.boundTo (home j)))
      refine ⟨v, fun i => ?_⟩
      rw [eval, hm t (home i) (home j) ⟨i, rfl⟩ ⟨j, rfl⟩]
      exact hv i
    · exact ⟨.error {}, fun i => absurd ⟨i⟩ hsome⟩
  | hasSuperType m ih => exact hsearch rfl t _ fun u => ih hsearch hm u
  | declaresMethod m ih =>
    exact exists_settles_anyOf fun d _ => ih (fun h => nomatch h) hm d
  | inPackage package =>
    have hanswer (i : ι) : eval ops (inPackage package) (t.boundTo (home i))
        = pure (.ok (Text.startsWith (TypeDescription.name t) (packageStart package))) := rfl
    simp only [hanswer]
    exact exists_forall_settles_pure _
  | _ =>
    change ∃ v, ∀ i, Settles (good i) (eval ops _ t) v
    exact ⟨_, fun _ => settles_pure _⟩

/-- Matchers of loaders look nothing up, so their answer does not depend on the session at all. -/
theorem exists_settles_eval_loader {good : Session ε → Prop}
    (hjournal : ∀ s journal, good s → good { s with journal }) (m : Matcher .loader)
    (l : LoaderDescription) : ∃ v, Settles good (m.eval ops l) v := by
  have hsteady : m.IsSteady fun h => ∃ _ : Unit, none = h :=
    (m.isSteady_singleton none).mono fun _ ⟨_, h⟩ => h.symm
  obtain ⟨v, hv⟩ := m.exists_settles_eval_of (fun _ => hjournal) _ (fun h => nomatch h) hsteady l
  exact ⟨v, hv ()⟩

end Family

/-! ### Classes of one loader -/

section Classes

variable {ι : Type} {home : ι → Option Home} {size : ι → Nat}
  {records : ι → Array (List String)} {loader? : Option (Option LoaderId)}
  (hhome : ∀ i, (home i).map Home.loader = loader?)
include hhome

/-- **The answer of a steady matcher** is the same wherever the target is bound. -/
theorem exists_settles_eval_boundTo (hops : ops.Reliable fits) {k : Kind} (m : Matcher k)
    (hm : m.IsSteady fun h => ∃ i, home i = h) (t : Target k) :
    ∃ v, ∀ i, Settles (Session.Coherent ops fits (home i) (size i) (records i))
      (m.eval ops (t.boundTo (home i))) v :=
  m.exists_settles_eval_of (fun _ _ journal hs => hs.journal journal) home
    (fun _ t _ htest => exists_settles_searchHierarchy home (t.settles_resolve hhome hops) htest
      (t.settles_stepLimit hhome hops)) hm t

end Classes

/-- **The answer of a matcher** is the same whenever it is asked. -/
theorem exists_settles_eval (hops : ops.Reliable fits) {home : Option Home} {size : Nat}
    {records : Array (List String)} {k : Kind} (m : Matcher k) (t : Target k)
    (ht : t.LivesAt home) :
    ∃ v, Settles (Session.Coherent ops fits home size records) (m.eval ops t) v := by
  have hsteady : m.IsSteady fun h => ∃ _ : Unit, home = h :=
    (m.isSteady_singleton home).mono fun _ ⟨_, h⟩ => h.symm
  obtain ⟨v, hv⟩ : ∃ v, ∀ _ : Unit, Settles (Session.Coherent ops fits home size records)
      (m.eval ops (t.boundTo home)) v := m.exists_settles_eval_boundTo (fun _ => rfl) hops hsteady t
  rw [ht.boundTo_eq] at hv
  exact ⟨v, hv ()⟩

end Matcher

end AdviceWeaver

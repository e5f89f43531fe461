import AdviceWeaver.Pipeline.Installation
import AdviceWeaver.Proofs.Hosting.Contract
import AdviceWeaver.Proofs.Matching.Answers

/-!
# Classes that are ignored

Ignore rules that are asked about a name look nothing up, so whether they hit it does not depend on the
session (`IgnoreRules.Hits`). They are asked before anything else. So for a class that they hit it does
not matter what the rules of a pipeline would answer, nor whether its class file can be read: the
pipeline does the same whatever these are.

## Main results

* `Pipeline.run_transform_of_hits`, `Pipeline.run_mayTransform_of_hits` — nothing but the ignore rules is
  asked about a class that they hit.
* `Pipeline.run_installOn_congr` — such a class is never handed to a host again.
-/

namespace AdviceWeaver

open Act

variable {ε : Type} {ops : LoaderOps ε} {hosts : HostOps ε} {h : HostId} {s s₁ s' : Session ε}
  {p : Pipeline} {name : String} {l : LoaderDescription}

/-- The other session differs from this one in its journal only. -/
def Session.SameButJournal (s s' : Session ε) : Prop :=
  ∃ journal, s' = { s with journal }

theorem Session.SameButJournal.refl (s : Session ε) : s.SameButJournal s :=
  ⟨s.journal, rfl⟩

/-- What differs in the journal only twice does so once. -/
theorem Session.SameButJournal.trans (h : s.SameButJournal s₁) (h' : s₁.SameButJournal s') :
    s.SameButJournal s' := by
  obtain ⟨_, rfl⟩ := h
  obtain ⟨journal, rfl⟩ := h'
  exact ⟨journal, rfl⟩

/-- The journal may change once more. -/
theorem Session.SameButJournal.journal (h : s.SameButJournal s') (journal : Journal) :
    s.SameButJournal { s' with journal } := by
  obtain ⟨_, rfl⟩ := h
  exact ⟨journal, rfl⟩

/-! ### Matchers of names -/

/-- A type that is bound nowhere has no pool. -/
theorem TypeDescription.pool_boundTo_none (t : TypeDescription) : (t.boundTo none).pool = none := by
  cases hpool : t.pool with
  | none => simp only [boundTo, hpool, Option.bind_none]
  | some id => simp only [boundTo, hpool, Option.bind_some, Option.map_none]

/-- From a type without a pool, nothing can be resolved but the root of the hierarchy. -/
theorem TypeDescription.exists_settles_resolve_unbound {ι : Type} {good : ι → Session ε → Prop}
    (t : TypeDescription) (name : String) :
    ∃ v : Except Panic (Except MatchError TypeDescription), ∀ i,
      Settles (good i) ((t.boundTo none).resolve ops name)
        (v.map fun answer => answer.map (boundTo none)) := by
  unfold resolve
  rw [pool_boundTo_none]
  split
  · exact ⟨.ok (.ok (ofName rootClass)), fun _ => settles_pure _⟩
  · exact ⟨.ok (.error (.unresolvable name "no type pool")), fun _ => settles_pure _⟩

namespace Matcher

/-- The bound on the steps up from a type without a pool does not depend on the session. -/
theorem settles_stepLimit_unbound {good : Session ε → Prop} (t : TypeDescription) :
    Settles good ((t.boundTo none).stepLimit ops) (.ok (t.superNames.length + 2)) := by
  refine settles_get_bind fun s hs => ⟨s, ?_, hs⟩
  rw [t.pool_boundTo_none]
  rfl

/-- A matcher that is asked about a target without a pool does not look at the session, and leaves
nothing but traces. -/
theorem exists_settles_eval_unbound {k : Kind} (m : Matcher k) (t : Target k) (ht : t.LivesAt none) :
    ∃ v, ∀ s : Session ε, Settles s.SameButJournal (m.eval ops t) v := by
  have hsteady : m.IsSteady fun h => ∃ _ : Session ε, none = h :=
    (m.isSteady_singleton none).mono fun _ ⟨_, h⟩ => h.symm
  obtain ⟨v, hv⟩ : ∃ v, ∀ s : Session ε, Settles s.SameButJournal (m.eval ops (t.boundTo none)) v :=
    m.exists_settles_eval_of (fun s _ journal hs => hs.journal journal) (fun _ => none)
      (fun _ t _ htest => exists_settles_searchHierarchy _ t.exists_settles_resolve_unbound htest
        ⟨_, fun _ => settles_stepLimit_unbound t⟩) hsteady t
  rw [ht.boundTo_eq] at hv
  exact ⟨v, hv⟩

end Matcher

/-! ### Ignore rules -/

namespace IgnoreRules

/-- **Ignore rules that are asked about a name** have one answer, and leave nothing but traces. -/
theorem exists_run_coversName (ops : LoaderOps ε) (rules : IgnoreRules) (name : String)
    (l : LoaderDescription) :
    ∃ v, ∀ s, ∃ journal, (rules.coversName ops name l).run s = (v, { s with journal }) := by
  have hlog (s : Session ε) (level : Level) (message : String) (fields : List (String × String)) :
      Settles s.SameButJournal (log level message fields) (.ok ()) :=
    settles_log (fun _ journal hs => hs.journal journal) level message fields
  have hcovers : ∃ v, ∀ s : Session ε, Settles s.SameButJournal (rules.coversName ops name l) v := by
    refine Matcher.exists_forall_settles_bind
      (rules.loaders.exists_settles_eval_unbound l trivial) fun answer => ?_
    rcases answer with e | _ | _
    · exact ⟨_, fun s => (hlog s _ _ _).bind ((settles_pure true).bind (settles_pure true))⟩
    · -- No rule for loaders hits, so those for types are asked.
      refine Matcher.exists_forall_settles_bind_ok (fun _ => settles_pure false) ?_
      refine Matcher.exists_forall_settles_bind
        (rules.types.exists_settles_eval_unbound (.ofName name) (.inl rfl)) fun answer => ?_
      rcases answer with e | hit
      · exact ⟨_, fun s => (hlog s _ _ _).bind (settles_pure true)⟩
      · exact ⟨_, fun s => settles_pure hit⟩
    · exact ⟨_, fun s => (settles_pure true).bind (settles_pure true)⟩
  obtain ⟨v, hv⟩ := hcovers
  refine ⟨v, fun s => ?_⟩
  obtain ⟨s', hrun, journal, rfl⟩ := hv s s ⟨s.journal, rfl⟩
  exact ⟨journal, hrun⟩

/-- The rules hit a class that is known by its name only. -/
def Hits (ops : LoaderOps ε) (rules : IgnoreRules) (name : String) (l : LoaderDescription) : Prop :=
  ∀ s, ((rules.coversName ops name l).run s).1 = .ok true

/-- Rules that hit a name do so whenever they are asked. -/
theorem Hits.exists_run {rules : IgnoreRules} (h : rules.Hits ops name l) (s : Session ε) :
    ∃ journal, (rules.coversName ops name l).run s = (.ok true, { s with journal }) := by
  obtain ⟨v, hv⟩ := rules.exists_run_coversName ops name l
  obtain ⟨journal, hrun⟩ := hv s
  have hv : v = .ok true := by
    rw [← h s, hrun]
  exact ⟨journal, hv ▸ hrun⟩

/-- Rules that answer yes to a name and a loader hit it. -/
theorem hits_of_run {rules : IgnoreRules} (h : ((rules.coversName ops name l).run s).1 = .ok true) :
    rules.Hits ops name l := by
  obtain ⟨v, hv⟩ := rules.exists_run_coversName ops name l
  obtain ⟨journal, hrun⟩ := hv s
  intro s'
  obtain ⟨journal', hrun'⟩ := hv s'
  rw [hrun', ← h, hrun]

end IgnoreRules

/-! ### Calls that are never made -/

/-- Two sequences run alike if they go on alike from what the first action does. -/
theorem Act.run_bind_congr {α β : Type} {a : Act ε α} {f g : α → Act ε β}
    (hfg : ∀ x s', a.run s = (.ok x, s') → (f x).run s' = (g x).run s') :
    (a >>= f).run s = (a >>= g).run s := by
  rcases hrun : a.run s with ⟨p | x, s'⟩
  · rw [run_bind_error hrun, run_bind_error hrun]
  · rw [run_bind_ok hrun, run_bind_ok hrun]
    exact hfg x s' hrun

/-- Doing the same for each item is the same. -/
theorem forM_congr {α : Type} {f g : α → Act ε Unit} {items : List α} (h : ∀ x ∈ items, f x = g x) :
    items.forM f = items.forM g := by
  induction items with
  | nil => rfl
  | cons x rest ih =>
    show (f x >>= fun _ => rest.forM f) = (g x >>= fun _ => rest.forM g)
    rw [h x List.mem_cons_self, ih fun y hy => h y (List.mem_cons_of_mem x hy)]

/-- Classes are handed to a host together with some of the others, and with no other classes. -/
theorem retransformInBatches_congr {classes : List LoadedClass}
    {retransform : HostId → List LoadedClass → Act ε (Except HostError Unit)}
    (hsame : ∀ cs ⊆ classes, retransform h cs = hosts.retransform h cs) :
    retransformInBatches { hosts with retransform } h classes
      = retransformInBatches hosts h classes := by
  refine forM_congr fun batch hbatch => ?_
  have hsub : batch ⊆ classes := subset_of_mem_batches (by decide) hbatch
  have hone (c : LoadedClass) (hc : c ∈ batch) :
      retransformOne { hosts with retransform } h c = retransformOne hosts h c := by
    unfold retransformOne
    dsimp only
    rw [hsame [c] (List.cons_subset.2 ⟨hsub hc, List.nil_subset _⟩)]
  unfold retransformBatch
  dsimp only
  rw [hsame batch hsub, forM_congr hone]

/-! ### Pipelines -/

namespace Pipeline

/-- **Transforming an ignored class** is nothing but asking for its loader and asking the ignore rules:
whatever the rules and the class file are, the pipeline answers nothing and records nothing. -/
theorem run_transform_of_hits {r : TransformRequest} (hname : r.className = some name)
    (hloader : (r.loaderDescription ops).run s = (.ok l, s₁))
    (hhits : p.ignore.Hits ops (binaryName name) l) :
    ∃ journal, ∀ rules bytes redefining,
      ({ p with rules }.transform ops { r with bytes, redefining }).run s
        = (.ok none, { s₁ with journal }) := by
  obtain ⟨journal, hcovers⟩ := hhits.exists_run s₁
  refine ⟨journal, fun rules bytes redefining => ?_⟩
  unfold transform
  refine (run_bind_ok hloader).trans ?_
  simp only [hname]
  exact run_bind_ok hcovers

/-- Whether an ignored class may be transformed is told by the ignore rules, or by the host. -/
theorem run_mayTransform_of_hits {c : LoadedClass} (hhits : p.ignore.Hits ops c.name c.loader)
    (s : Session ε) :
    ∃ journal, ∀ rules, ({ p with rules }.mayTransform ops c).run s
      = (.ok false, { s with journal }) := by
  obtain ⟨journal, hcovers⟩ := hhits.exists_run s
  cases hmodifiable : c.modifiable with
  | false =>
    refine ⟨s.journal, fun rules => ?_⟩
    unfold mayTransform
    simp only [hmodifiable]
    rfl
  | true =>
    refine ⟨journal, fun rules => ?_⟩
    unfold mayTransform
    simp only [hmodifiable]
    exact run_bind_ok hcovers

/-- Ignored classes are no candidates. -/
theorem not_hits_of_run_mayTransform {c : LoadedClass}
    (hrun : (p.mayTransform ops c).run s = (.ok true, s')) :
    ¬ p.ignore.Hits ops c.name c.loader := by
  intro hhits
  obtain ⟨journal, hmay⟩ := run_mayTransform_of_hits hhits s
  exact absurd (hrun.symm.trans (hmay p.rules)) nofun

/-- Candidates passed the test at some time. -/
theorem exists_of_mem_filterAuxM {α : Type} {test : α → Act ε Bool} {items kept found : List α} {x : α}
    (hrun : (items.filterAuxM test kept).run s = (.ok found, s')) (hx : x ∈ found) :
    x ∈ kept ∨ ∃ s₁ s₂, (test x).run s₁ = (.ok true, s₂) := by
  induction items generalizing kept s with
  | nil =>
    cases hrun
    exact .inl hx
  | cons first rest ih =>
    obtain ⟨hit, s₁, htest, hrun⟩ := exists_of_run_bind hrun
    cases hit with
    | false => exact ih hrun
    | true =>
      rcases ih hrun with hkept | htested
      · rcases List.mem_cons.1 hkept with rfl | hkept
        · exact .inr ⟨_, _, htest⟩
        · exact .inl hkept
      · exact .inr htested

/-- A candidate for retransformation was asked for by its name, and not ignored. -/
theorem not_hits_of_mem_candidates {loaded found : List LoadedClass} {c : LoadedClass}
    (hrun : (loaded.filterM (p.mayTransform ops)).run s = (.ok found, s')) (hc : c ∈ found) :
    ¬ p.ignore.Hits ops c.name c.loader := by
  obtain ⟨kept, s₁, hkept, hrun⟩ := exists_of_run_bind hrun
  cases hrun
  rcases exists_of_mem_filterAuxM hkept (List.mem_reverse.1 hc) with hnil | ⟨s₂, s₃, hmay⟩
  · cases hnil
  · exact not_hits_of_run_mayTransform hmay

/-- **Ignored classes are never handed to a host again:** installing a pipeline is the same on a host
that does something else with them. -/
theorem run_installOn_congr {retransform : HostId → List LoadedClass → Act ε (Except HostError Unit)}
    (hsame : ∀ classes, (∀ c ∈ classes, ¬ p.ignore.Hits ops c.name c.loader) →
      retransform h classes = hosts.retransform h classes) (s : Session ε) :
    (p.installOn ops { hosts with retransform } h).run s = (p.installOn ops hosts h).run s := by
  unfold installOn
  dsimp only
  refine run_bind_congr fun _ s _ => run_bind_congr fun supported s _ => ?_
  cases supported with
  | false => simp only [Bool.not_false, if_true]
  | true =>
    refine run_bind_congr fun answer s _ => ?_
    rcases answer with e | loaded
    · rfl
    · refine run_bind_congr fun candidates s hcandidates => run_bind_congr fun _ s _ => ?_
      rw [retransformInBatches_congr fun classes hsub => hsame classes fun c hc =>
        not_hits_of_mem_candidates hcandidates (hsub hc)]

end Pipeline

end AdviceWeaver

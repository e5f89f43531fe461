import AdviceWeaver.Proofs.Hosting.Serving
import AdviceWeaver.Proofs.Pipeline.Constancy

/-!
# The form that classes settle in

If a pipeline has one answer for each class, then a class that passes through it takes the form that
the answer says, and this form is the last one. So once every class has passed, it does not matter when
it did: the classes and the record of the pipeline are determined by the classes that there are
(`HostModel.Settled`).

## Main results

* `HostModel.exists_answers` — what a pipeline makes of a class depends on neither the session nor the
  record of the pipeline.
* `HostModel.Settled.of_passes`, `HostModel.Settled.of_reruns` — classes settle when they pass.
-/

namespace AdviceWeaver

open Act

variable {ε : Type} {ops : LoaderOps ε} {hosts : HostOps ε} {h : HostId} {M : HostModel ε}
  {s s' s₁ : Session ε} {handle : Nat} {handles : List Nat} {k : HostedClass} {p : Pipeline}
  {redefining : Bool} {answer : TransformRequest → Option Bytes}

/-! ### Classes in their initial form -/

namespace HostedClass

/-- The class in its initial form. -/
def initial (k : HostedClass) : HostedClass :=
  { k with current := k.original }

/-- The class in the form that an answer of a pipeline gives it. -/
def settled (k : HostedClass) (answer : TransformRequest → Option Bytes) : HostedClass :=
  { k with current := (answer (k.request false)).getD k.original }

end HostedClass

/-- The classes of a host in their initial forms. -/
def HostView.initial (v : HostView) (handle : Nat) : Option HostedClass :=
  (v.classes handle).map HostedClass.initial

/-- Setting a class sets its first bytes. -/
theorem HostView.initial_set (v : HostView) (handle : Nat) (k : HostedClass) :
    (v.set handle k).initial = Function.update v.initial handle (some k.initial) := by
  funext other
  by_cases heq : other = handle
  · subst heq
    rw [initial, classes_set_self, Function.update_self]
    rfl
  · rw [initial, classes_set_of_ne v heq, Function.update_of_ne heq]
    rfl

namespace HostModel

/-! ### Answers -/

/-- Whenever a class passes through the pipeline alone, the answer is the one given here, and the class
is recorded if something comes out. Such a class is not left out when the pipeline is installed. -/
structure Answers (M : HostModel ε) (ops : LoaderOps ε) (p : Pipeline)
    (answer : TransformRequest → Option Bytes) : Prop where
  run (k : HostedClass) (redefining : Bool) (s : Session ε) : M.valid s.world → k.IsNamed →
    ∃ s', (Transformer.transformAll ops (k.request redefining) [.pipeline p]).run s
        = (.ok (answer (k.request false)), s')
      ∧ M.valid s'.world ∧ M.view s'.world = M.view s.world
      ∧ s'.records = if (answer (k.request false)).isSome
        then s.records.modify p.record (Text.insertAscending k.name) else s.records
  eligible {k : HostedClass} (handle : Nat) (s : Session ε) : M.valid s.world →
    k.IsProper ops M → (answer (k.request false)).isSome = true →
    ∀ good : Session ε → Prop, (∀ s journal, good s → good { s with journal }) →
      Settles good (p.mayTransform ops (k.listed handle)) (.ok true)

/-- **What a pipeline makes of a class** depends on neither the session nor the record of the
pipeline. -/
theorem exists_answers (hhost : HostContract ops hosts h M) (hops : ops.Reliable M.valid)
    (hcalm : p.ignore.Calm ops) (hrules : ∀ r ∈ p.rules, r.types.IsSteady fun _ => True) :
    ∃ answer, ∀ record, M.Answers ops { p with record } answer := by
  choose answer hanswer using fun r : TransformRequest => p.exists_answer hops hcalm hrules r
  refine ⟨fun r => answer r, fun record => ⟨fun k redefining s hvalid hnamed => ?_,
    fun {k} handle s hvalid hproper hsome good hjournal => ?_⟩⟩
  · obtain ⟨out?, s', hrun, hall, hrest⟩ :=
      exists_run_transformAll (p := { p with record }) hhost hcalm.neverPanic hvalid hnamed redefining
    obtain rfl : out? = answer (k.request false) :=
      hanswer (k.request false) record redefining s s' out? hvalid hrun
    exact ⟨s', hall, hrest⟩
  · obtain ⟨l, hl, out?, s', hrun, -, hends⟩ := Pipeline.exists_run_transform hops hvalid
      (p := { p with record }) hcalm.neverPanic (k.request false)
    obtain rfl : out? = answer (k.request false) :=
      hanswer (k.request false) record false s s' out? hvalid hrun
    obtain rfl : k.description = l := Except.ok.inj ((hproper.described s hvalid).symm.trans hl)
    rcases hends with ⟨c, t, plan, out, hweaves, -, -⟩ | ⟨-, hnone, -⟩
    · have hname : k.name = (k.request false).knownName t := by
        unfold TransformRequest.knownName
        obtain ⟨d, hd, rfl⟩ := hweaves.described
        cases hclass : k.className with
        | some name =>
          simp only [HostedClass.request, hclass, Option.map_some, Option.getD_some]
          exact (hproper.className name hclass).symm
        | none =>
          have hread : TypeDescription.read k.original = .ok d := by
            rw [TypeDescription.read, show ClassFile.read k.original = .ok c from hweaves.read]
            exact hd
          simp only [HostedClass.request, hclass, Option.map_none, Option.getD_none]
          exact hproper.named d hread
      exact hweaves.settles_mayTransform hops hcalm hvalid hjournal hproper.modifiable rfl hname
    · rw [hnone] at hsome
      cases hsome

/-! ### Settling -/

/-- The host has the pipeline as its only transformer and, in their initial forms, certain classes. All
but some that are left have the form that the answers give them. The record of the pipeline names the
classes that the pipeline rewrites, except that those that are left may be missing. -/
structure Settled (M : HostModel ε) (p : Pipeline) (answer : TransformRequest → Option Bytes)
    (base : Nat → Option HostedClass) (left : Nat → Prop) (s : Session ε) : Prop where
  valid : M.valid s.world
  record : p.record < s.records.size
  transformers : (M.view s.world).transformers = [.pipeline p]
  initial : (M.view s.world).initial = base
  form {handle : Nat} {k : HostedClass} : (M.view s.world).classes handle = some k →
    k = k.settled answer ∨ left handle
  recorded {handle : Nat} {k : HostedClass} : base handle = some k →
    (answer (k.request false)).isSome = true → k.name ∈ s.recordedBy p.record ∨ left handle
  names {name : String} : name ∈ s.recordedBy p.record → ∃ handle k, base handle = some k
    ∧ (answer (k.request false)).isSome = true ∧ k.name = name

namespace Settled

variable {base : Nat → Option HostedClass} {left left' : Nat → Prop}

/-- More may be left to do. -/
theorem mono (hs : M.Settled p answer base left s) (h : ∀ handle, left handle → left' handle) :
    M.Settled p answer base left' s :=
  ⟨hs.valid, hs.record, hs.transformers, hs.initial, fun hclass => (hs.form hclass).imp_right (h _),
    fun hbase hsome => (hs.recorded hbase hsome).imp_right (h _), hs.names⟩

/-- Only the view of the world and the records matter. -/
theorem of_eq (hs : M.Settled p answer base left s) (hvalid : M.valid s'.world)
    (hview : M.view s'.world = M.view s.world) (hrecords : s'.records = s.records) :
    M.Settled p answer base left s' := by
  have hrecorded : s'.recordedBy p.record = s.recordedBy p.record := by
    rw [Session.recordedBy, hrecords]
    rfl
  refine ⟨hvalid, hrecords ▸ hs.record, hview ▸ hs.transformers, hview ▸ hs.initial, ?_, ?_, ?_⟩
  · rw [hview]
    exact hs.form
  · rw [hrecorded]
    exact hs.recorded
  · rw [hrecorded]
    exact hs.names

/-- A host that rests is settled as it was. -/
theorem of_rests (hs : M.Settled p answer base left s) (hrests : M.Rests s s') :
    M.Settled p answer base left s' :=
  hs.of_eq hrests.valid hrests.view hrests.records

/-- The classes that there are, in their initial forms. -/
theorem base_eq (hs : M.Settled p answer base left s)
    (hclass : (M.view s.world).classes handle = some k) : base handle = some k.initial := by
  rw [← hs.initial, HostView.initial, hclass, Option.map_some]

section Answers

variable (hp : M.Answers ops p answer)
include hp

/-- **A class that passes** settles. It is new, or it was there before. -/
theorem of_passes (hs : M.Settled p answer base left s) (hnamed : k.IsNamed)
    (hbase : ∀ k', base handle = some k' → k' = k.initial)
    (hpasses : M.Passes ops handle k redefining s s') :
    M.Settled p answer (Function.update base handle (some k.initial))
      (fun other => left other ∧ other ≠ handle) s' := by
  obtain ⟨passed, s₁, hrun, hbecomes⟩ := hpasses
  obtain ⟨s₂, hrun', -, hview, hrecords⟩ := hp.run k redefining s hs.valid hnamed
  rw [hs.transformers, hrun'] at hrun
  obtain ⟨rfl, rfl⟩ := Prod.mk.inj hrun
  rw [← hbecomes.records] at hrecords
  have hnames {name : String} : name ∈ s'.recordedBy p.record
      ↔ ((answer (k.request false)).isSome ∧ name = k.name) ∨ name ∈ s.recordedBy p.record :=
    mem_recordedBy_of_modify hs.record hrecords
  have hpassed : k.passed (.ok (answer (k.request false))) = k.settled answer := rfl
  rw [hpassed, hview] at hbecomes
  refine ⟨hbecomes.valid, (size_records_of_modify hrecords).symm ▸ hs.record, ?_, ?_,
    fun {other k'} hclass => ?_, fun {other k'} hother hsome => ?_, fun {name} hname => ?_⟩
  · rw [hbecomes.view]
    exact hs.transformers
  · rw [hbecomes.view, HostView.initial_set, hs.initial]
    rfl
  · rw [hbecomes.view] at hclass
    by_cases heq : other = handle
    · subst heq
      rw [HostView.classes_set_self] at hclass
      cases hclass
      exact .inl rfl
    · rw [HostView.classes_set_of_ne _ heq] at hclass
      exact (hs.form hclass).imp_right fun h => ⟨h, heq⟩
  · by_cases heq : other = handle
    · subst heq
      rw [Function.update_self] at hother
      cases hother
      exact .inl (hnames.2 (.inl ⟨hsome, rfl⟩))
    · rw [Function.update_of_ne heq] at hother
      exact (hs.recorded hother hsome).imp (fun h => hnames.2 (.inr h)) fun h => ⟨h, heq⟩
  · rcases hnames.1 hname with ⟨hsome, rfl⟩ | hname
    · exact ⟨handle, k.initial, Function.update_self .., hsome, rfl⟩
    · obtain ⟨other, k', hother, hsome, rfl⟩ := hs.names hname
      by_cases heq : other = handle
      · subst heq
        obtain rfl := hbase k' hother
        exact ⟨other, k.initial, Function.update_self .., hsome, rfl⟩
      · exact ⟨other, k', (Function.update_of_ne heq ..).trans hother, hsome, rfl⟩

/-- A class that passes in vain may be recorded, but it is recorded anyway in the end. -/
theorem of_run (hs : M.Settled p answer base left s) (hbase : base handle = some k.initial)
    (hnamed : k.IsNamed) {passed : Except Panic (Option Bytes)}
    (hrun : (Transformer.transformAll ops (k.request redefining)
      (M.view s.world).transformers).run s = (passed, s₁)) :
    M.Settled p answer base left s₁ := by
  obtain ⟨s₂, hrun', hvalid, hview, hrecords⟩ := hp.run k redefining s hs.valid hnamed
  rw [hs.transformers, hrun'] at hrun
  obtain ⟨-, rfl⟩ := Prod.mk.inj hrun
  have hnames {name : String} : name ∈ s₂.recordedBy p.record
      ↔ ((answer (k.request false)).isSome ∧ name = k.name) ∨ name ∈ s.recordedBy p.record :=
    mem_recordedBy_of_modify hs.record hrecords
  refine ⟨hvalid, (size_records_of_modify hrecords).symm ▸ hs.record, hview ▸ hs.transformers,
    hview ▸ hs.initial, ?_, fun hother hsome => ?_, fun {name} hname => ?_⟩
  · rw [hview]
    exact hs.form
  · exact (hs.recorded hother hsome).imp_left fun h => hnames.2 (.inr h)
  · rcases hnames.1 hname with ⟨hsome, rfl⟩ | hname
    · exact ⟨handle, k.initial, hbase, hsome, rfl⟩
    · exact hs.names hname

/-- **Classes that pass again** settle, too. -/
theorem of_reruns (hs : M.Settled p answer base left s)
    (hnamed : ∀ handle k, base handle = some k → k.IsNamed) (h : M.Reruns ops handles s s') :
    M.Settled p answer base (fun handle => left handle ∧ handle ∉ handles) s' := by
  induction h generalizing left with
  | nil hrests => exact (hs.of_rests hrests).mono fun _ h => ⟨h, List.not_mem_nil⟩
  | @cons s s₁ s₂ s' handle handles k hrests hclass hpasses hrest ih =>
    have hs₁ := hs.of_rests hrests
    have hbase : base handle = some k.initial := hs₁.base_eq hclass
    have hk : k.IsNamed := hnamed handle k.initial hbase
    have hs₂ := hs₁.of_passes hp hk
      (fun k' hk' => Option.some.inj (hk'.symm.trans hbase)) hpasses
    rw [← hbase, Function.update_eq_self] at hs₂
    refine (ih hs₂).mono fun other h => ⟨h.1.1, fun hmem => ?_⟩
    rcases List.mem_cons.1 hmem with heq | hmem
    · exact h.1.2 heq
    · exact h.2 hmem
  | @dropped s s₁ s₂ s₃ s' handle handles k passed hrests hclass hrun hdropped hrest ih =>
    have hs₁ := hs.of_rests hrests
    have hbase : base handle = some k.initial := hs₁.base_eq hclass
    have hk : k.IsNamed := hnamed handle k.initial hbase
    have hs₂ := hs₁.of_run hp hbase hk hrun
    exact ih (hs₂.of_rests hdropped)

end Answers

/-- **Once all classes have settled**, their forms are determined. -/
theorem classes_eq (hs : M.Settled p answer base (fun _ => False) s) :
    (M.view s.world).classes = fun handle => (base handle).map (·.settled answer) := by
  funext handle
  rw [← hs.initial, HostView.initial]
  cases hclass : (M.view s.world).classes handle with
  | none => rfl
  | some k =>
    rcases hs.form hclass with hform | hleft
    · exact congrArg some hform
    · exact hleft.elim

/-- So is the record. -/
theorem mem_recordedBy_iff (hs : M.Settled p answer base (fun _ => False) s) {name : String} :
    name ∈ s.recordedBy p.record ↔ ∃ handle k, base handle = some k
      ∧ (answer (k.request false)).isSome = true ∧ k.name = name := by
  refine ⟨hs.names, ?_⟩
  rintro ⟨handle, k, hbase, hsome, rfl⟩
  rcases hs.recorded hbase hsome with hmem | hleft
  · exact hmem
  · exact hleft.elim

end Settled

/-! ### Definitions -/

/-- Where classes are after they were defined, and what else there is, if something is kept from one
definition to the next. -/
theorem DefinesAll.exists_base {kept : (Nat → Option HostedClass) → Session ε → Prop}
    {ks : List HostedClass} (h : M.DefinesAll ops ks handles s s')
    (hinitial : ∀ {base s}, kept base s → (M.view s.world).initial = base)
    (hrests : ∀ {base s s'}, kept base s → M.Rests s s' → kept base s')
    (hpasses : ∀ {base handle s s'} k, k ∈ ks → kept base s → base handle = none →
      M.Passes ops handle k false s s' → kept (Function.update base handle (some k.initial)) s')
    {base : Nat → Option HostedClass} (hs : kept base s) :
    ∃ base', kept base' s'
      ∧ handles.map base' = ks.map (fun k => some k.initial)
      ∧ (∀ handle k, base handle = some k → base' handle = some k)
      ∧ ∀ handle k, base' handle = some k → base handle = some k ∨ ∃ k' ∈ ks, k = k'.initial := by
  induction h generalizing base with
  | nil hrest => exact ⟨base, hrests hs hrest, rfl, fun _ _ h => h, fun _ _ h => .inl h⟩
  | @cons s s₁ s₂ s' handle handles k ks hrest hnew hpassed _ ih =>
    have hs₁ := hrests hs hrest
    have hnone : base handle = none := by
      rw [← hinitial hs₁, HostView.initial, hnew, Option.map_none]
    obtain ⟨base', hs', hmap, hkept, horigin⟩ :=
      ih (fun k' hk' => hpasses k' (List.mem_cons_of_mem k hk'))
        (hpasses k List.mem_cons_self hs₁ hnone hpassed)
    refine ⟨base', hs', ?_, fun other k' hother => hkept other k' ?_, fun other k' hother => ?_⟩
    · rw [List.map_cons, List.map_cons, hmap, hkept handle k.initial (Function.update_self ..)]
    · have hne : other ≠ handle := by
        rintro rfl
        exact absurd (hnone.symm.trans hother) nofun
      exact (Function.update_of_ne hne ..).trans hother
    · rcases horigin other k' hother with hbefore | ⟨k₁, hk₁, rfl⟩
      · by_cases heq : other = handle
        · subst heq
          rw [Function.update_self] at hbefore
          exact .inr ⟨k, List.mem_cons_self, (Option.some.inj hbefore).symm⟩
        · exact .inl ((Function.update_of_ne heq ..).symm.trans hbefore)
      · exact .inr ⟨k₁, List.mem_cons_of_mem k hk₁, rfl⟩

end HostModel

end AdviceWeaver

import AdviceWeaver.Proofs.Hosting.Serving
import AdviceWeaver.Proofs.Pipeline.Ignored

/-!
# What the record of a pipeline accounts for

A host may have several classes of one name, and the ignore rules may hit only some of them, since they
look at the loader as well. So the name of an ignored class may be in the record of a pipeline, but only
because there is another class of that name that is not ignored (`HostModel.Accounts`). Nothing is
asked of the classes here but that they are known by their own names; they need not be modifiable, and
may have any form.

## Main results

* `HostModel.Accounts.of_passes`, `HostModel.Accounts.of_reruns` — what passes is accounted for.
* `HostModel.Houses.of_reruns_nil` — without transformers, classes just pass.
-/

namespace AdviceWeaver

open Act

variable {ε : Type} {ops : LoaderOps ε} {hosts : HostOps ε} {h : HostId} {M : HostModel ε}
  {s s' s₁ : Session ε} {handle : Nat} {handles : List Nat} {k : HostedClass} {p : Pipeline}
  {redefining : Bool}

namespace HostedClass

/-- The host tells transformers the name and the loader of a class as it lists them. -/
structure IsIntroduced (ops : LoaderOps ε) (M : HostModel ε) (k : HostedClass) : Prop where
  className : ∃ name, k.className = some name ∧ binaryName name = k.name
  described (s : Session ε) : M.valid s.world →
    (((k.request false).loaderDescription ops).run s).1 = .ok k.description

/-- The ignore rules of a pipeline hit a class. -/
def IsIgnored (ops : LoaderOps ε) (p : Pipeline) (k : HostedClass) : Prop :=
  p.ignore.Hits ops k.name k.description

end HostedClass

namespace HostModel

/-- In a sound session the host has these transformers, and its classes are known by their own names. -/
structure Houses (M : HostModel ε) (transformers : List Transformer) (s : Session ε) : Prop where
  valid : M.valid s.world
  transformers : (M.view s.world).transformers = transformers
  named {handle : Nat} {k : HostedClass} : (M.view s.world).classes handle = some k → k.IsNamed

/-- **Accounted for:** the pipeline is the only transformer, and a name is in its record because of a
class that is not ignored. -/
structure Accounts (ops : LoaderOps ε) (M : HostModel ε) (p : Pipeline) (s : Session ε) : Prop where
  houses : M.Houses [.pipeline p] s
  record : p.record < s.records.size
  recorded {name : String} : name ∈ s.recordedBy p.record →
    ∃ handle k, (M.view s.world).classes handle = some k ∧ k.name = name ∧ ¬ k.IsIgnored ops p

namespace Houses

variable {transformers transformers' : List Transformer}

/-- The same classes with other transformers. -/
theorem of_classes_eq (hs : M.Houses transformers s) (hvalid : M.valid s'.world)
    (htransformers : (M.view s'.world).transformers = transformers')
    (hclasses : (M.view s'.world).classes = (M.view s.world).classes) :
    M.Houses transformers' s' := by
  refine ⟨hvalid, htransformers, ?_⟩
  rw [hclasses]
  exact hs.named

/-- What a host houses is told by its world. -/
theorem of_world_eq (hs : M.Houses transformers s) (h : s'.world = s.world) :
    M.Houses transformers s' :=
  hs.of_classes_eq (h ▸ hs.valid) (h ▸ hs.transformers) (by rw [h])

/-- A host that rests houses what it did. -/
theorem of_rests (hs : M.Houses transformers s) (hrests : M.Rests s s') :
    M.Houses transformers s' :=
  hs.of_classes_eq hrests.valid (hrests.view ▸ hs.transformers) (by rw [hrests.view])

/-- A class in a new place is known by its own name. -/
theorem of_set (hs : M.Houses transformers s) (hvalid : M.valid s'.world)
    (hview : M.view s'.world = (M.view s.world).set handle k) (hnamed : k.IsNamed) :
    M.Houses transformers s' := by
  refine ⟨hvalid, ?_, fun {other k'} hclass => ?_⟩
  · rw [hview, HostView.transformers_set]
    exact hs.transformers
  · rw [hview] at hclass
    by_cases heq : other = handle
    · subst heq
      rw [HostView.classes_set_self] at hclass
      exact Option.some.inj hclass ▸ hnamed
    · rw [HostView.classes_set_of_ne _ heq] at hclass
      exact hs.named hclass

/-- Without transformers, classes just pass. -/
theorem of_reruns_nil (hs : M.Houses [] s) (hreruns : M.Reruns ops handles s s') :
    M.Houses [] s' ∧ (M.view s'.world).listing = (M.view s.world).listing := by
  induction hreruns with
  | nil hrests => exact ⟨hs.of_rests hrests, by rw [hrests.view]⟩
  | @cons s s₁ s₂ s' handle handles k hrests hclass hpasses hrest ih =>
    have hs₁ := hs.of_rests hrests
    have hbecomes := hpasses.of_nil hs₁.transformers
    have hnamed : k.IsNamed := hs₁.named hclass
    obtain ⟨hs', hlisting⟩ := ih (hs₁.of_set hbecomes.valid hbecomes.view hnamed)
    refine ⟨hs', ?_⟩
    rw [hlisting, hbecomes.view, HostView.listing_set hclass, hrests.view]
  | dropped hrests hclass hrun hdropped hrest ih =>
    have hs₁ := hs.of_rests hrests
    rw [hs₁.transformers] at hrun
    cases hrun
    obtain ⟨hs', hlisting⟩ := ih (hs₁.of_rests hdropped)
    refine ⟨hs', ?_⟩
    rw [hlisting, hdropped.view, hrests.view]

end Houses

namespace Accounts

/-- Only the world and the records matter. -/
theorem of_world_eq (hs : M.Accounts ops p s) (hworld : s'.world = s.world)
    (hrecords : s'.records = s.records) : M.Accounts ops p s' := by
  have hrecorded : s'.recordedBy p.record = s.recordedBy p.record := by
    rw [Session.recordedBy, hrecords]
    rfl
  refine ⟨hs.houses.of_world_eq hworld, hrecords ▸ hs.record, ?_⟩
  rw [hrecorded, hworld]
  exact hs.recorded

/-- A host that rests has the accounts that it had. -/
theorem of_rests (hs : M.Accounts ops p s) (hrests : M.Rests s s') : M.Accounts ops p s' := by
  have hrecorded : s'.recordedBy p.record = s.recordedBy p.record := by
    rw [Session.recordedBy, hrests.records]
    rfl
  refine ⟨hs.houses.of_rests hrests, hrests.records ▸ hs.record, ?_⟩
  rw [hrecorded, hrests.view]
  exact hs.recorded

/-- A class that takes a place, where there was none or one like it, keeps the account. -/
theorem of_set (hs : M.Accounts ops p s) (hvalid : M.valid s'.world)
    (hview : M.view s'.world = (M.view s.world).set handle k) (hnamed : k.IsNamed)
    (hplace : ∀ k', (M.view s.world).classes handle = some k' →
      k'.name = k.name ∧ k'.description = k.description)
    (hsize : s'.records.size = s.records.size)
    (hrecorded : ∀ name ∈ s'.recordedBy p.record,
      (name = k.name ∧ ¬ k.IsIgnored ops p) ∨ name ∈ s.recordedBy p.record) :
    M.Accounts ops p s' := by
  refine ⟨hs.houses.of_set hvalid hview hnamed, hsize ▸ hs.record, fun {name} hname => ?_⟩
  rw [hview]
  rcases hrecorded name hname with ⟨rfl, hnot⟩ | hold
  · exact ⟨handle, k, HostView.classes_set_self _ _ _, rfl, hnot⟩
  · obtain ⟨other, k', hclass, rfl, hnot⟩ := hs.recorded hold
    by_cases heq : other = handle
    · subst heq
      obtain ⟨hname, hdescription⟩ := hplace k' hclass
      refine ⟨other, k, HostView.classes_set_self _ _ _, hname.symm, ?_⟩
      rw [HostedClass.IsIgnored, ← hname, ← hdescription]
      exact hnot
    · exact ⟨other, k', (HostView.classes_set_of_ne _ heq k).trans hclass, rfl, hnot⟩

section Passing

variable (hhost : HostContract ops hosts h M) (hignore : p.ignore.NeverPanic ops fun _ => True)
include hhost hignore

/-- An ignored class is not recorded. -/
theorem of_run (hs : M.Accounts ops p s) (hintroduced : k.IsIntroduced ops M) (hnamed : k.IsNamed)
    {answer : Except Panic (Option Bytes)}
    (hrun : (Transformer.transformAll ops (k.request redefining)
      (M.view s.world).transformers).run s = (answer, s₁)) :
    M.valid s₁.world ∧ M.view s₁.world = M.view s.world ∧ s₁.records.size = s.records.size
      ∧ ∀ name ∈ s₁.recordedBy p.record,
        (name = k.name ∧ ¬ k.IsIgnored ops p) ∨ name ∈ s.recordedBy p.record := by
  obtain ⟨out?, s₂, hout, hall, hvalid, hview, hrecords⟩ :=
    exists_run_transformAll hhost hignore hs.houses.valid hnamed redefining
  rw [hs.houses.transformers, hall] at hrun
  obtain ⟨rfl, rfl⟩ := Prod.mk.inj hrun
  refine ⟨hvalid, hview, size_records_of_modify hrecords, fun name hname => ?_⟩
  rcases (mem_recordedBy_of_modify hs.record hrecords).1 hname with ⟨hsome, rfl⟩ | hold
  · refine .inl ⟨rfl, fun hignored => ?_⟩
    -- Of an ignored class nothing would have come out.
    obtain ⟨name, hname, heq⟩ := hintroduced.className
    rcases hloader : ((k.request redefining).loaderDescription ops).run s with ⟨l, s₃⟩
    obtain rfl : l = .ok k.description := by
      rw [← hintroduced.described s hs.houses.valid]
      exact (congrArg Prod.fst hloader).symm
    have hhits : p.ignore.Hits ops (binaryName name) k.description := heq ▸ hignored
    obtain ⟨journal, htransform⟩ :=
      Pipeline.run_transform_of_hits (r := k.request redefining) hname hloader hhits
    have hnone := hout.symm.trans (htransform p.rules k.original redefining)
    obtain rfl := Except.ok.inj (Prod.mk.inj hnone).1
    cases hsome
  · exact .inr hold

/-- **A class that passes** is accounted for. -/
theorem of_passes (hs : M.Accounts ops p s) (hintroduced : k.IsIntroduced ops M) (hnamed : k.IsNamed)
    (hplace : ∀ k', (M.view s.world).classes handle = some k' →
      k'.name = k.name ∧ k'.description = k.description)
    (hpasses : M.Passes ops handle k redefining s s') : M.Accounts ops p s' := by
  obtain ⟨answer, s₁, hrun, hbecomes⟩ := hpasses
  obtain ⟨-, hview, hsize, hrecorded⟩ := hs.of_run hhost hignore hintroduced hnamed hrun
  have hview' : M.view s'.world = (M.view s.world).set handle (k.passed answer) :=
    hbecomes.view.trans (by rw [hview])
  have hnamed' : (k.passed answer).IsNamed := hnamed
  refine hs.of_set hbecomes.valid hview' hnamed' hplace (hbecomes.records ▸ hsize) ?_
  rw [Session.recordedBy, hbecomes.records]
  exact hrecorded

/-- **Classes that pass again** are accounted for. -/
theorem of_reruns (hs : M.Accounts ops p s)
    (hintroduced : ∀ w handle k, M.valid w → (M.view w).classes handle = some k →
      k.IsIntroduced ops M) (hreruns : M.Reruns ops handles s s') :
    M.Accounts ops p s' ∧ (M.view s'.world).listing = (M.view s.world).listing := by
  induction hreruns with
  | nil hrests => exact ⟨hs.of_rests hrests, by rw [hrests.view]⟩
  | @cons s s₁ s₂ s' handle handles k hrests hclass hpasses hrest ih =>
    have hs₁ := hs.of_rests hrests
    have hk : k.IsIntroduced ops M := hintroduced _ _ _ hrests.valid hclass
    have hnamed : k.IsNamed := hs₁.houses.named hclass
    obtain ⟨hs', hlisting⟩ := ih (hs₁.of_passes hhost hignore hk hnamed (fun k' hclass' => by
      obtain rfl := Option.some.inj (hclass'.symm.trans hclass)
      exact ⟨rfl, rfl⟩) hpasses)
    refine ⟨hs', ?_⟩
    obtain ⟨answer, s₃, hrun, hbecomes⟩ := hpasses
    obtain ⟨-, hview, -⟩ := hs₁.of_run hhost hignore hk hnamed hrun
    rw [hlisting, hbecomes.view, hview]
    exact (HostView.listing_set hclass _).trans (by rw [hrests.view])
  | @dropped s s₁ s₂ s₃ s' handle handles k answer hrests hclass hrun hdropped hrest ih =>
    have hs₁ := hs.of_rests hrests
    have hk : k.IsIntroduced ops M := hintroduced _ _ _ hrests.valid hclass
    obtain ⟨hvalid, hview, hsize, hrecorded⟩ :=
      hs₁.of_run hhost hignore hk (hs₁.houses.named hclass) hrun
    have hs₂ : M.Accounts ops p s₂ := by
      refine ⟨hs₁.houses.of_classes_eq hvalid (hview ▸ hs₁.houses.transformers) (by rw [hview]),
        hsize ▸ hs₁.record, fun {name} hname => ?_⟩
      rw [hview]
      rcases hrecorded name hname with ⟨rfl, hnot⟩ | hold
      · exact ⟨handle, k, hclass, rfl, hnot⟩
      · exact hs₁.recorded hold
    obtain ⟨hs', hlisting⟩ := ih (hs₂.of_rests hdropped)
    refine ⟨hs', ?_⟩
    rw [hlisting, hdropped.view, hview, hrests.view]

end Passing

end Accounts

end HostModel

end AdviceWeaver

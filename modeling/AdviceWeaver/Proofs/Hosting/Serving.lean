import AdviceWeaver.Proofs.Hosting.Contract
import AdviceWeaver.Proofs.Pipeline.Transform

/-!
# Classes in the hands of a host

A class differs from its initial class file only if there is an excuse for it: while a pipeline is
registered, the record of the pipeline names the class; when none is registered any more, the class
is one that is still to be transformed again. Every class that passes through the transformers keeps
to that.

## Main results

* `HostModel.Watched.of_reruns` — the record of a pipeline names the classes that it changed.
* `HostModel.Serves.of_reruns_nil` — without transformers, classes get their initial form back.
-/

namespace AdviceWeaver

open Act

variable {ε : Type} {ops : LoaderOps ε} {hosts : HostOps ε} {h : HostId} {M : HostModel ε}
  {transformers : List Transformer} {s s' s₁ : Session ε} {handle : Nat} {handles : List Nat}
  {k k' : HostedClass} {p : Pipeline} {redefining : Bool}

/-- The names in a record. -/
def Session.recordedBy (s : Session ε) (id : RecordId) : List String :=
  (s.records[id]?).getD []

namespace HostModel

/-- In a sound session the host has these transformers, all its classes are modifiable and known by
their own names, and there is an excuse for every class that is changed. -/
structure Serves (M : HostModel ε) (transformers : List Transformer)
    (excused : Nat → HostedClass → Prop) (s : Session ε) : Prop where
  valid : M.valid s.world
  transformers : (M.view s.world).transformers = transformers
  modifiable {handle : Nat} {k : HostedClass} : (M.view s.world).classes handle = some k →
    k.modifiable = true
  named {handle : Nat} {k : HostedClass} : (M.view s.world).classes handle = some k → k.IsNamed
  changed {handle : Nat} {k : HostedClass} : (M.view s.world).classes handle = some k →
    k.IsChanged → excused handle k

/-- The pipeline is the only transformer, and its record names the classes that are changed. -/
structure Watched (M : HostModel ε) (p : Pipeline) (s : Session ε) : Prop where
  record : p.record < s.records.size
  serves : M.Serves [.pipeline p] (fun _ k => k.name ∈ s.recordedBy p.record) s

namespace Serves

variable {excused excused' : Nat → HostedClass → Prop}

/-- More may be excused. -/
theorem mono (hs : M.Serves transformers excused s)
    (h : ∀ handle k, (M.view s.world).classes handle = some k → excused handle k →
      excused' handle k) :
    M.Serves transformers excused' s :=
  ⟨hs.valid, hs.transformers, hs.modifiable, hs.named,
    fun hclass hchanged => h _ _ hclass (hs.changed hclass hchanged)⟩

/-- Only the world matters. -/
theorem of_world_eq (hs : M.Serves transformers excused s) (h : s'.world = s.world) :
    M.Serves transformers excused s' := by
  refine ⟨h ▸ hs.valid, h ▸ hs.transformers, ?_, ?_, ?_⟩
  all_goals rw [h]
  · exact hs.modifiable
  · exact hs.named
  · exact hs.changed

/-- Classes that are listed are modifiable. -/
theorem modifiable_of_lists (hs : M.Serves transformers excused s) {c : LoadedClass}
    (hc : (M.view s.world).Lists c) : c.modifiable = true := by
  obtain ⟨k, hclass, hlisted⟩ := Option.map_eq_some_iff.1 hc
  rw [← hlisted]
  exact hs.modifiable hclass

/-- A session with the same view serves as well. -/
theorem of_rests (hs : M.Serves transformers excused s) (hrests : M.Rests s s') :
    M.Serves transformers excused s' := by
  refine ⟨hrests.valid, hrests.view ▸ hs.transformers, ?_, ?_, ?_⟩
  all_goals rw [hrests.view]
  · exact hs.modifiable
  · exact hs.named
  · exact hs.changed

/-- **A class in a new place** is excused like the others. -/
theorem of_set (hs : M.Serves transformers excused s) (hvalid : M.valid s'.world)
    (hview : M.view s'.world = (M.view s.world).set handle k) (hmodifiable : k.modifiable = true)
    (hnamed : k.IsNamed) (hchanged : k.IsChanged → excused' handle k)
    (hexcused : ∀ other k, other ≠ handle → excused other k → excused' other k) :
    M.Serves transformers excused' s' := by
  have hclasses {other : Nat} {k' : HostedClass}
      (hclass : (M.view s'.world).classes other = some k') :
      (other = handle ∧ k' = k) ∨ (other ≠ handle ∧ (M.view s.world).classes other = some k') := by
    rw [hview] at hclass
    by_cases heq : other = handle
    · subst heq
      rw [HostView.classes_set_self] at hclass
      exact .inl ⟨rfl, (Option.some.inj hclass).symm⟩
    · rw [HostView.classes_set_of_ne _ heq] at hclass
      exact .inr ⟨heq, hclass⟩
  refine ⟨hvalid, ?_, fun {other k'} hclass => ?_, fun {other k'} hclass => ?_,
    fun {other k'} hclass hk' => ?_⟩
  · rw [hview, HostView.transformers_set]
    exact hs.transformers
  · rcases hclasses hclass with ⟨rfl, rfl⟩ | ⟨-, hclass⟩
    · exact hmodifiable
    · exact hs.modifiable hclass
  · rcases hclasses hclass with ⟨rfl, rfl⟩ | ⟨-, hclass⟩
    · exact hnamed
    · exact hs.named hclass
  · rcases hclasses hclass with ⟨rfl, rfl⟩ | ⟨hne, hclass⟩
    · exact hchanged hk'
    · exact hexcused other k' hne (hs.changed hclass hk')

end Serves

/-! ### Without transformers -/

/-- A class that passes where there are no transformers has its initial form. -/
theorem Passes.of_nil (h : M.Passes ops handle k redefining s s')
    (htransformers : (M.view s.world).transformers = []) :
    M.Becomes s ((M.view s.world).set handle { k with current := k.original }) s' := by
  obtain ⟨answer, s₁, hrun, hbecomes⟩ := h
  rw [htransformers] at hrun
  cases hrun
  exact hbecomes

/-- What is left to be transformed again, when some classes passed. -/
theorem Serves.of_reruns_nil {left : Nat → Prop}
    (hs : M.Serves [] (fun handle _ => left handle) s) (h : M.Reruns ops handles s s') :
    M.Serves [] (fun handle _ => left handle ∧ handle ∉ handles) s'
      ∧ (M.view s'.world).listing = (M.view s.world).listing := by
  induction h generalizing left with
  | nil hrests =>
    refine ⟨(hs.of_rests hrests).mono fun handle k _ h => ⟨h, List.not_mem_nil⟩, ?_⟩
    rw [hrests.view]
  | @cons s s₁ s₂ s' handle handles k hrests hclass hpasses hrest ih =>
    have hs₁ := hs.of_rests hrests
    have hbecomes := hpasses.of_nil hs₁.transformers
    have hmodifiable : k.modifiable = true := hs₁.modifiable hclass
    have hnamed : k.IsNamed := hs₁.named hclass
    have hs₂ : M.Serves [] (fun other _ => left other ∧ other ≠ handle) s₂ := by
      refine hs₁.of_set hbecomes.valid hbecomes.view hmodifiable hnamed
        (fun hchanged => ?_) fun other k hne h => ⟨h, hne⟩
      exact absurd rfl hchanged
    obtain ⟨hs', hlisting⟩ := ih hs₂
    refine ⟨hs'.mono fun other k _ h => ⟨h.1.1, fun hmem => ?_⟩, ?_⟩
    · rcases List.mem_cons.1 hmem with heq | hmem
      · exact h.1.2 heq
      · exact h.2 hmem
    · rw [hlisting, hbecomes.view, HostView.listing_set hclass, hrests.view]
  | dropped hrests hclass hrun hdropped hrest ih =>
    have hs₁ := hs.of_rests hrests
    rw [hs₁.transformers] at hrun
    cases hrun
    obtain ⟨hs', hlisting⟩ := ih (hs₁.of_rests hdropped)
    refine ⟨hs', ?_⟩
    rw [hlisting, hdropped.view, hrests.view]

/-! ### With one pipeline -/

/-- The names in a record to which one may have been added. -/
theorem mem_recordedBy_of_modify {name added : String} {id : RecordId} (hid : id < s.records.size)
    {happens : Bool} (h : s'.records = if happens then
      s.records.modify id (Text.insertAscending added) else s.records) :
    name ∈ s'.recordedBy id ↔ (happens ∧ name = added) ∨ name ∈ s.recordedBy id := by
  cases happens with
  | false => simp [Session.recordedBy, h]
  | true =>
    rw [if_pos rfl] at h
    rw [Session.recordedBy, Session.recordedBy, h, Array.getElem?_modify, if_pos rfl,
      Array.getElem?_eq_getElem hid]
    exact Text.mem_insertAscending.trans (by simp)

/-- A record that gets a name, or does not, is one of as many. -/
theorem size_records_of_modify {id : RecordId} {added : String} {happens : Bool}
    (h : s'.records = if happens then s.records.modify id (Text.insertAscending added)
      else s.records) : s'.records.size = s.records.size := by
  rw [h]
  split
  · exact Array.size_modify
  · rfl

/-- What comes out of a pipeline that takes part alone. -/
theorem transformAll_pipeline {r : TransformRequest} {out? : Option Bytes}
    (hrun : (p.transform ops r).run s = (.ok out?, s')) :
    (Transformer.transformAll ops r [.pipeline p]).run s = (.ok out?, s') := by
  refine (run_bind_ok hrun).trans ?_
  cases out? with
  | none => rfl
  | some out => rfl

/-- A pipeline that takes part alone does not panic, leaves the host alone, and records the class if
anything comes out, and only then. -/
theorem exists_run_transformAll (hhost : HostContract ops hosts h M)
    (hignore : p.ignore.NeverPanic ops fun _ => True) (hvalid : M.valid s.world) (hnamed : k.IsNamed)
    (redefining : Bool) :
    ∃ out? s₁, (p.transform ops (k.request redefining)).run s = (.ok out?, s₁)
      ∧ (Transformer.transformAll ops (k.request redefining) [.pipeline p]).run s = (.ok out?, s₁)
      ∧ M.valid s₁.world ∧ M.view s₁.world = M.view s.world
      ∧ s₁.records = if out?.isSome then s.records.modify p.record (Text.insertAscending k.name)
        else s.records := by
  have hignore' : p.ignore.NeverPanic ops fun w => M.valid w ∧ M.view w = M.view s.world :=
    ⟨fun l _ => hignore.loaders l trivial, fun t _ => hignore.types t trivial⟩
  obtain ⟨l, -, out?, s₁, hout, ⟨hvalid₁, hview₁⟩, hends⟩ := Pipeline.exists_run_transform
    (hhost.loaders (M.view s.world)) ⟨hvalid, rfl⟩ hignore' (k.request redefining)
  have hall := transformAll_pipeline hout
  refine ⟨out?, s₁, hout, hall, hvalid₁, hview₁, ?_⟩
  rcases hends with ⟨c, t, plan, out, hweaves, rfl, hrecords⟩ | ⟨-, rfl, hrecords⟩
  · obtain ⟨d, hd, rfl⟩ := hweaves.described
    have hread : TypeDescription.read k.original = .ok d := by
      rw [TypeDescription.read, show ClassFile.read k.original = .ok c from hweaves.read]
      exact hd
    rw [hnamed d hread]
    exact hrecords
  · exact hrecords

/-- A pipeline does not panic, if its ignore rules do not. -/
theorem neverPanic_pipeline {fits : ε → Prop} (hops : ops.Reliable fits)
    (hignore : p.ignore.NeverPanic ops fits) : Transformer.NeverPanic ops fits [.pipeline p] := by
  intro r s hs
  obtain ⟨l, -, out?, s₁, hrun, hfits, -⟩ := Pipeline.exists_run_transform hops hs hignore r
  exact ⟨out?, s₁, transformAll_pipeline hrun, hfits⟩

namespace Watched

/-- Only the world and the records matter. -/
theorem of_world_eq (hs : M.Watched p s) (hworld : s'.world = s.world)
    (hrecords : s'.records = s.records) : M.Watched p s' := by
  have hrecorded : s'.recordedBy p.record = s.recordedBy p.record := by
    rw [Session.recordedBy, hrecords]
    rfl
  refine ⟨hrecords ▸ hs.record, ?_⟩
  rw [hrecorded]
  exact hs.serves.of_world_eq hworld

/-- A host that rests is watched as it was. -/
theorem of_rests (hs : M.Watched p s) (hrests : M.Rests s s') : M.Watched p s' := by
  have hrecorded : s'.recordedBy p.record = s.recordedBy p.record := by
    rw [Session.recordedBy, hrests.records]
    rfl
  refine ⟨hrests.records ▸ hs.record, ?_⟩
  rw [hrecorded]
  exact hs.serves.of_rests hrests

section Pipelines

variable (hhost : HostContract ops hosts h M) (hignore : p.ignore.NeverPanic ops fun _ => True)
include hhost hignore

/-- Whatever comes out for a class, the record has it. -/
theorem of_run (hs : M.Watched p s) (hnamed : k.IsNamed) {answer : Except Panic (Option Bytes)}
    (hrun : (Transformer.transformAll ops (k.request redefining)
      (M.view s.world).transformers).run s = (answer, s₁)) :
    M.Watched p s₁ ∧ M.view s₁.world = M.view s.world
      ∧ ((k.passed answer).IsChanged → k.name ∈ s₁.recordedBy p.record) := by
  obtain ⟨out?, s₂, -, hall, hvalid, hview, hrecords⟩ :=
    exists_run_transformAll hhost hignore hs.serves.valid hnamed redefining
  rw [hs.serves.transformers, hall] at hrun
  obtain ⟨rfl, rfl⟩ := Prod.mk.inj hrun
  have hsize : s₂.records.size = s.records.size := size_records_of_modify hrecords
  have hnames {name : String} : name ∈ s₂.recordedBy p.record
      ↔ (out?.isSome ∧ name = k.name) ∨ name ∈ s.recordedBy p.record :=
    mem_recordedBy_of_modify hs.record hrecords
  refine ⟨⟨hsize ▸ hs.record, hvalid, ?_, ?_, ?_, ?_⟩, hview, fun hchanged => ?_⟩
  · rw [hview]
    exact hs.serves.transformers
  · rw [hview]
    exact hs.serves.modifiable
  · rw [hview]
    exact hs.serves.named
  · rw [hview]
    exact fun hclass hchanged => hnames.2 (.inr (hs.serves.changed hclass hchanged))
  · cases out? with
    | none => exact absurd rfl hchanged
    | some out => exact hnames.2 (.inl ⟨rfl, rfl⟩)

/-- **A class that passes** through a pipeline is in its record if it is changed. -/
theorem of_passes (hs : M.Watched p s) (hmodifiable : k.modifiable = true) (hnamed : k.IsNamed)
    (hpasses : M.Passes ops handle k redefining s s') :
    M.Watched p s' ∧ ∃ current,
      M.view s'.world = (M.view s.world).set handle { k with current } := by
  obtain ⟨answer, s₁, hrun, hbecomes⟩ := hpasses
  obtain ⟨hs₁, hview, hchanged⟩ := hs.of_run hhost hignore hnamed hrun
  have hrecorded : s'.recordedBy p.record = s₁.recordedBy p.record := by
    rw [Session.recordedBy, hbecomes.records]
    rfl
  refine ⟨⟨hbecomes.records ▸ hs₁.record, ?_⟩, _, hview ▸ hbecomes.view⟩
  rw [hrecorded]
  exact hs₁.serves.of_set hbecomes.valid hbecomes.view hmodifiable hnamed hchanged
    fun _ _ _ h => h

/-- The record names the classes that are changed, however often they pass. -/
theorem of_reruns (hs : M.Watched p s) (h : M.Reruns ops handles s s') :
    M.Watched p s' ∧ (M.view s'.world).listing = (M.view s.world).listing := by
  induction h with
  | nil hrests => exact ⟨hs.of_rests hrests, by rw [hrests.view]⟩
  | cons hrests hclass hpasses hrest ih =>
    have hs₁ := hs.of_rests hrests
    obtain ⟨hs₂, current, hview⟩ := hs₁.of_passes hhost hignore (hs₁.serves.modifiable hclass)
      (hs₁.serves.named hclass) hpasses
    obtain ⟨hs', hlisting⟩ := ih hs₂
    refine ⟨hs', ?_⟩
    rw [hlisting, hview, HostView.listing_set hclass, hrests.view]
  | dropped hrests hclass hrun hdropped hrest ih =>
    have hs₁ := hs.of_rests hrests
    obtain ⟨hs₂, hview, -⟩ := hs₁.of_run hhost hignore (hs₁.serves.named hclass) hrun
    obtain ⟨hs', hlisting⟩ := ih (hs₂.of_rests hdropped)
    refine ⟨hs', ?_⟩
    rw [hlisting, hdropped.view, hview, hrests.view]

end Pipelines

end Watched

end HostModel

end AdviceWeaver

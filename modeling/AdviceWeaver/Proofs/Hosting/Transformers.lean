import AdviceWeaver.Hosting.Host
import AdviceWeaver.Proofs.Pipeline.Transform
import AdviceWeaver.Proofs.Session.Triples

/-!
# Transformers leave the world alone

Whatever a transformer does with a class, and whether its matchers panic or not, all that it asks of
the world it asks of class loaders. If these are reliable, the world stays as fit as it was.

## Main results

* `Transformer.ensures_transformAll` — passing a class through transformers keeps the world fit.
-/

namespace AdviceWeaver

open Act

variable {ε α : Type} {ops : LoaderOps ε} {fits : ε → Prop} {p : Pipeline} {r : TransformRequest}
  {s : Session ε} {l : LoaderDescription} {c : ClassFile}

/-- What settles in coherent sessions keeps the world fit. -/
theorem Session.Coherent.ensures_fits {home : Option Home} {size : Nat}
    {records : Array (List String)} {a : Act ε α}
    (h : ∃ v, Settles (Session.Coherent ops fits home size records) a v) :
    Ensures (Session.Coherent ops fits home size records) a
      fun _ => Session.Coherent ops fits home size records := by
  obtain ⟨v, hv⟩ := h
  intro s hs x s' hrun
  obtain ⟨s₁, hrun', hs₁⟩ := hv s hs
  rw [hrun'] at hrun
  cases hrun
  exact hs₁

/-- Ignore rules come to an end of some kind, if only to a panic. -/
theorem IgnoreRules.exists_settles_covers {home : Option Home} {size : Nat}
    {records : Array (List String)} (hops : ops.Reliable fits) (rules : IgnoreRules)
    {t : TypeDescription} (ht : t.LivesAt home) (l : LoaderDescription) :
    ∃ v, Settles (Session.Coherent ops fits home size records) (rules.covers ops t l) v := by
  have hlog (level : Level) (message : String) (fields : List (String × String)) :
      Settles (Session.Coherent ops fits home size records) (log level message fields) (.ok ()) :=
    Session.Coherent.settles_log level message fields
  refine exists_settles_bind (rules.loaders.exists_settles_eval hops l trivial) fun answer => ?_
  rcases answer with e | _ | _
  · exact ⟨_, (hlog _ _ _).bind ((settles_pure true).bind (settles_pure true))⟩
  · refine (settles_pure false).exists_bind ?_
    refine exists_settles_bind (rules.types.exists_settles_eval hops t ht) fun answer => ?_
    rcases answer with e | hit
    · exact ⟨_, (hlog _ _ _).bind (settles_pure true)⟩
    · exact ⟨_, settles_pure hit⟩
  · exact ⟨_, (settles_pure true).bind (settles_pure true)⟩

namespace Pipeline

/-- Weaving keeps the world fit, as it asks nobody. -/
theorem ensures_weaveInto (bytes : Bytes) (t : TypeDescription) (plan : WeavePlan) :
    Ensures (fun s => fits s.world) (p.weaveInto bytes c t plan) fun _ s => fits s.world := by
  have hlog (level : Level) (message : String) (fields : List (String × String)) :
      Ensures (fun s => fits s.world) (log level message fields : Act ε Unit)
        fun _ s => fits s.world :=
    (settles_log (fun _ _ hs => hs) level message fields).safe.ensures
  have hnothing : Ensures (fun s => fits s.world) (pure none : Act ε (Option Bytes))
      fun _ s => fits s.world := (settles_pure none).safe.ensures
  unfold weaveInto
  by_cases hempty : plan.isEmpty = true
  · rw [if_pos hempty]
    exact hnothing
  rw [if_neg hempty]
  rcases weave bytes c plan with e | _ | out
  · exact (hlog _ _ _).bind fun _ => hnothing
  · exact hnothing
  · refine (hlog _ _ _).bind fun _ s hs out? s' hrun => ?_
    cases hrun
    exact hs

/-- Transforming a class that was described keeps the world fit. -/
theorem ensures_transformType (hops : ops.Reliable fits) (t : TypeDescription) :
    Ensures (fun s => fits s.world) (p.transformType ops r l c t) fun _ s => fits s.world := by
  intro s hs out? s' hrun
  have hvisit : (r.visit s).Coherent ops fits (some ⟨s.pools.size, r.loader⟩) (s.pools.size + 1)
      s.records := (Session.Coherent.of_world hs).visit r
  obtain ⟨t', ht'⟩ : ∃ t', t' = { t with pool := some s.pools.size } := ⟨_, rfl⟩
  have hlives : t'.LivesAt (some ⟨s.pools.size, r.loader⟩) := .inr ⟨_, rfl, by rw [ht']⟩
  have hplan : Ensures (Session.Coherent ops fits (some ⟨s.pools.size, r.loader⟩)
      (s.pools.size + 1) s.records) (do
        let plan ← planRules ops t' r.loader l .empty p.rules
        p.weaveInto r.bytes c t' plan) fun _ s => fits s.world := by
    refine (Session.Coherent.ensures_fits ⟨_, settles_planRules hops hvisit hlives r.loader l
      p.rules⟩).bind fun plan s₁ hs₁ => ?_
    exact ensures_weaveInto r.bytes t' plan s₁ hs₁.world
  have hcovers := Session.Coherent.ensures_fits
    (IgnoreRules.exists_settles_covers hops p.ignore hlives l : ∃ v, Settles
      (Session.Coherent ops fits _ (s.pools.size + 1) s.records) _ v)
  have hrun' : (p.transformType ops r l c t).run s = (do
      if r.className.isNone then
        if ← p.ignore.covers ops t' l then return none
      let plan ← planRules ops t' r.loader l .empty p.rules
      p.weaveInto r.bytes c t' plan).run (r.visit s) := by
    rw [ht']
    unfold transformType
    exact run_bind_ok rfl
  rw [hrun'] at hrun
  cases hname : r.className with
  | some name =>
    rw [hname] at hrun
    exact hplan _ hvisit out? s' hrun
  | none =>
    rw [hname] at hrun
    have hasked : Ensures (Session.Coherent ops fits (some ⟨s.pools.size, r.loader⟩)
        (s.pools.size + 1) s.records) (do
          if ← p.ignore.covers ops t' l then return none
          let plan ← planRules ops t' r.loader l .empty p.rules
          p.weaveInto r.bytes c t' plan) fun _ s => fits s.world := by
      refine hcovers.bind fun hit => ?_
      cases hit with
      | false => exact hplan
      | true => exact (ensures_pure none).mono fun _ _ h => h.2.world
    exact hasked _ hvisit out? s' hrun

/-- Transforming the bytes of a request keeps the world fit. -/
theorem ensures_transformBytes (hops : ops.Reliable fits) :
    Ensures (fun s => fits s.world) (p.transformBytes ops r l) fun _ s => fits s.world := by
  have hnothing (fields : List (String × String)) (message : String) :
      Ensures (fun s => fits s.world) (do
        log .debug message fields
        return none : Act ε (Option Bytes)) fun _ s => fits s.world :=
    ((settles_log (fun _ _ hs => hs) .debug message fields).bind (settles_pure none)).safe.ensures
  unfold transformBytes
  cases ClassFile.read r.bytes with
  | error e => exact hnothing _ _
  | ok c =>
    dsimp only
    cases TypeDescription.ofClassFile c with
    | error e => exact hnothing _ _
    | ok t => exact ensures_transformType hops t

/-- **Transforming a class** keeps the world fit. -/
theorem ensures_transform (hops : ops.Reliable fits) (r : TransformRequest) :
    Ensures (fun s => fits s.world) (p.transform ops r) fun _ s => fits s.world := by
  intro s hs out? s' hrun
  have hs₀ : s.Coherent ops fits none s.pools.size s.records := .of_world hs
  obtain ⟨l, hl⟩ := r.settles_loaderDescription hops
  obtain ⟨l', s₁, hloader, hrun⟩ := exists_of_run_bind hrun
  obtain ⟨-, hs₁⟩ := (Session.Coherent.settles_of_fit hl).ensures s hs₀ l' s₁ hloader
  cases hname : r.className with
  | none =>
    rw [hname] at hrun
    exact ensures_transformBytes hops s₁ hs₁.world out? s' hrun
  | some name =>
    rw [hname] at hrun
    have hlives : TypeDescription.LivesAt none (.ofName (binaryName name)) := .inl rfl
    obtain ⟨hit, s₂, hcovers, hrun⟩ := exists_of_run_bind hrun
    have hs₂ := Session.Coherent.ensures_fits
      (IgnoreRules.exists_settles_covers hops p.ignore hlives l') s₁ hs₁ hit s₂ hcovers
    cases hit with
    | false => exact ensures_transformBytes hops s₂ hs₂.world out? s' hrun
    | true =>
      cases hrun
      exact hs₂.world

end Pipeline

/-- **What a transformer from outside does** keeps the world fit, if loading a class on the way does. -/
theorem ForeignWork.ensures_run (hops : ops.Reliable fits)
    (hload : ∀ e, Ensures (fun s => fits s.world) (ops.load e) fun _ s => fits s.world)
    (work : ForeignWork) (r : TransformRequest) :
    Ensures (fun s => fits s.world) (work.run ops r) fun _ s => fits s.world := by
  induction work with
  | answer out => exact (ensures_pure out).mono fun _ _ h => h.2
  | panic =>
    intro s _ out? s' hrun
    cases hrun
  | note text next ih =>
    have hnote : Ensures (fun s => fits s.world) (Act.note (.text text) : Act ε Unit)
        fun _ s => fits s.world := by
      rintro s hs _ s' ⟨⟩
      exact hs
    exact hnote.bind fun _ => ih
  | describe next ih =>
    have hdescribe : Ensures (fun s => fits s.world) (r.loaderDescription ops)
        fun _ s => fits s.world := by
      intro s hs l' s₁ hloader
      have hs₀ : s.Coherent ops fits none s.pools.size s.records := .of_world hs
      obtain ⟨l, hl⟩ := r.settles_loaderDescription hops
      exact ((Session.Coherent.settles_of_fit hl).ensures s hs₀ l' s₁ hloader).2.world
    exact hdescribe.bind fun l => ih l
  | load event next ih => exact (hload event).bind fun out => ih out

namespace Transformer

variable (hops : ops.Reliable fits)
  (hload : ∀ e, Ensures (fun s => fits s.world) (ops.load e) fun _ s => fits s.world)
include hops hload

/-- A transformer keeps the world fit, be it a pipeline or a foreign one. -/
theorem ensures_transform (t : Transformer) (r : TransformRequest) :
    Ensures (fun s => fits s.world) (t.transform ops r) fun _ s => fits s.world := by
  cases t with
  | pipeline p => exact p.ensures_transform hops r
  | custom name work => exact (work r).ensures_run hops hload r

/-- **Passing a class through transformers** keeps the world fit. -/
theorem ensures_transformAll (transformers : List Transformer) (r : TransformRequest) :
    Ensures (fun s => fits s.world) (transformAll ops r transformers) fun _ s => fits s.world := by
  induction transformers generalizing r with
  | nil => exact (ensures_pure none).mono fun _ _ h => h.2
  | cons t rest ih =>
    refine (ensures_transform hops hload t r).bind fun out? => ?_
    cases out? with
    | none => exact ih r
    | some bytes =>
      exact (ih { r with bytes }).bind fun later => (ensures_pure _).mono fun _ _ h => h.2

end Transformer

end AdviceWeaver

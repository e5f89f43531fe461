import AdviceWeaver.Proofs.Pipeline.Building
import AdviceWeaver.Proofs.Pipeline.Installing

/-!
# What is registered with hosts

Hosts that keep a registry register a transformer behind the others, and take out exactly the one that
is named; whatever else they are asked, they may answer as they like (`HostOps.Registers`). On such
hosts a pipeline that cannot be installed leaves no trace in the registry, and one that is taken out
is gone even if its classes cannot be restored.

## Main results

* `Pipeline.returns_installOn` — installing a pipeline registers it or changes nothing.
* `Pipeline.returns_resetOn` — taking a pipeline out unregisters it.
-/

namespace AdviceWeaver

open Act

variable {ε : Type} {ops : LoaderOps ε} {hosts : HostOps ε} {h : HostId}

/-! ### Registries -/

/-- The transformers that are registered with each host. -/
abbrev Registry := HostId → List Transformer

namespace Registry

/-- One more transformer, behind those of a host. -/
def add (r : Registry) (h : HostId) (t : Transformer) : Registry :=
  Function.update r h (r h ++ [t])

/-- One transformer less at a host. -/
def remove (r : Registry) (h : HostId) (t : Transformer) : Registry :=
  Function.update r h ((r h).filter fun u => u.id ≠ t.id)

variable {r : Registry} {h : HostId} {t : Transformer}

/-- A transformer is added to one host, behind the others. -/
theorem add_apply (r : Registry) (h h' : HostId) (t : Transformer) :
    r.add h t h' = r h' ++ if h' = h then [t] else [] := by
  rw [add, Function.update_apply]
  split
  · next heq => rw [heq]
  · rw [List.append_nil]

/-- A transformer is removed from one host, by its identity. -/
theorem remove_apply (r : Registry) (h h' : HostId) (t : Transformer) :
    r.remove h t h' = if h' = h then (r h').filter fun u => u.id ≠ t.id else r h' := by
  rw [remove, Function.update_apply]
  split
  · next heq => rw [heq]
  · rfl

/-- A transformer that is taken out again leaves no trace. -/
theorem remove_add (hnew : ∀ u ∈ r h, u.id ≠ t.id) : (r.add h t).remove h t = r := by
  funext h'
  rw [remove_apply, add_apply]
  by_cases heq : h' = h
  · subst heq
    simpa using hnew
  · simp [heq]

end Registry

variable {registered : ε → Registry}

/-- A pipeline is known if its record is one of those that there are. -/
def Transformer.IsKnown (count : Nat) : Transformer → Prop
  | .pipeline p => p.record < count
  | .custom _ _ => True

/-- A pipeline that is known is not one whose record is still to come. -/
theorem Transformer.IsKnown.id_ne {count : Nat} {t : Transformer} (ht : t.IsKnown count)
    {p : Pipeline} (hp : count ≤ p.record) : t.id ≠ (Transformer.pipeline p).id := by
  cases t with
  | custom name work => exact nofun
  | pipeline q =>
    intro heq
    have hrecord : q.record = p.record := TransformerId.pipeline.inj heq
    exact absurd (hrecord ▸ ht) (Nat.not_lt.2 hp)

/-- A pipeline that is known stays so as records are added. -/
theorem Transformer.IsKnown.mono {count count' : Nat} {t : Transformer} (ht : t.IsKnown count)
    (h : count ≤ count') : t.IsKnown count' := by
  cases t with
  | custom name work => exact trivial
  | pipeline q => exact Nat.lt_of_lt_of_le ht h

/-- The hosts have these transformers, and there are at least so many records. -/
structure Session.Holds (registered : ε → Registry) (r : Registry) (count : Nat) (s : Session ε) :
    Prop where
  registry : registered s.world = r
  records : count ≤ s.records.size

/-- A session holds what its world has registered, and its records. -/
theorem Session.Holds.refl (registered : ε → Registry) (s : Session ε) :
    s.Holds registered (registered s.world) s.records.size :=
  ⟨rfl, Nat.le_refl _⟩

/-- The journal has no part in what a session holds. -/
theorem Session.Holds.journal {r : Registry} {count : Nat} (s : Session ε) (journal : Journal)
    (hs : s.Holds registered r count) : { s with journal }.Holds registered r count :=
  ⟨hs.registry, hs.records⟩

/-- **Hosts that keep a registry** register and unregister what they are told to. They may answer
everything else as they like, and then leave the registry alone. -/
structure HostOps.Registers (hosts : HostOps ε) (registered : ε → Registry) : Prop where
  addTransformer (r : Registry) (count : Nat) (h : HostId) (t : Transformer) :
    Returns (Session.Holds registered r count) (hosts.addTransformer h t)
      fun _ => Session.Holds registered (r.add h t) count
  removeTransformer (r : Registry) (count : Nat) (h : HostId) (t : Transformer) :
    Returns (Session.Holds registered r count) (hosts.removeTransformer h t)
      fun _ => Session.Holds registered (r.remove h t) count
  supportsRetransform (r : Registry) (count : Nat) (h : HostId) :
    Safe (Session.Holds registered r count) (hosts.supportsRetransform h)
  loadedClasses (r : Registry) (count : Nat) (h : HostId) :
    Safe (Session.Holds registered r count) (hosts.loadedClasses h)
  retransform (r : Registry) (count : Nat) (h : HostId) (classes : List LoadedClass) :
    Safe (Session.Holds registered r count) (hosts.retransform h classes)

/-! ### Installing and taking out -/

namespace Pipeline

variable {start registered gone : Session ε → Prop} {p : Pipeline}

/-- Installing a pipeline does not panic, by what holds before, while it is registered, and after it was
taken out again because the host refused. -/
theorem returns_installOn_of
    (hjournal : ∀ s journal, registered s → registered { s with journal })
    (hcalm : p.ignore.Calm ops)
    (hadd : Returns start (hosts.addTransformer h (.pipeline p)) fun _ => registered)
    (hremove : Returns registered (hosts.removeTransformer h (.pipeline p)) fun _ => gone)
    (hsupports : Safe registered (hosts.supportsRetransform h))
    (hloaded : Safe registered (hosts.loadedClasses h))
    (hretransform : ∀ classes, Safe registered (hosts.retransform h classes)) :
    Returns start (p.installOn ops hosts h) fun answer s =>
      (∃ e, answer = .error e ∧ gone s) ∨ (answer = .ok () ∧ registered s) := by
  refine hadd.bind fun _ => hsupports.returns.bind fun supported => ?_
  cases supported with
  | false => exact hremove.bind fun _ => returns_pure fun s hs => .inl ⟨_, rfl, hs⟩
  | true =>
    refine hloaded.returns.bind fun loaded => ?_
    rcases loaded with e | loaded
    · exact hremove.bind fun _ => returns_pure fun s hs => .inl ⟨_, rfl, hs⟩
    · have hcandidates : Safe registered (loaded.filterM (p.mayTransform ops)) :=
        Safe.filterM (fun c => (exists_settles_mayTransform hjournal hcalm c).elim
          fun _ hmay => hmay.safe) loaded
      refine hcandidates.returns.bind fun candidates => ?_
      refine (settles_log hjournal _ _ _).safe.returns.bind fun _ => ?_
      refine (safe_retransformInBatches hjournal fun cs _ => hretransform cs).returns.bind
        fun _ => ?_
      exact returns_pure fun s hs => .inr ⟨rfl, hs⟩

/-- Taking a pipeline out does not panic, by what holds before and after it is unregistered. -/
theorem returns_resetOn_of (hjournal : ∀ s journal, gone s → gone { s with journal })
    (hremove : Returns start (hosts.removeTransformer h (.pipeline p)) fun _ => gone)
    (hclear : Safe gone (clearRecord p.record))
    (hloaded : Safe gone (hosts.loadedClasses h))
    (hretransform : ∀ classes, Safe gone (hosts.retransform h classes)) :
    Returns start (p.resetOn hosts h) fun _ => gone := by
  have hrecorded : Safe gone (recorded p.record) := fun s hs => ⟨_, s, rfl, hs⟩
  have hrest : Safe gone (p.restoreOn hosts h) := by
    refine hrecorded.bind fun names => hloaded.bind fun loaded => ?_
    rcases loaded with e | loaded
    · exact (settles_pure _).safe
    · refine (safe_retransformInBatches hjournal fun cs _ => hretransform cs).bind fun _ => ?_
      exact hclear.bind fun _ => (settles_pure _).safe
  rw [resetOn_eq]
  refine hremove.bind fun found => ?_
  cases found with
  | true => exact hrest.returns
  | false => exact ((settles_log hjournal _ _ _).safe.bind fun _ => hrest).returns

end Pipeline

/-! ### Hosts with a registry -/

section Pipelines

variable {r : Registry} {count : Nat} {p : Pipeline}

namespace Pipeline

/-- **Installing a pipeline** registers it with the host, or leaves the registry as it was. -/
theorem returns_installOn (hhosts : hosts.Registers registered) (hcalm : p.ignore.Calm ops)
    (hnew : ∀ t ∈ r h, t.id ≠ (Transformer.pipeline p).id) :
    Returns (Session.Holds registered r count) (p.installOn ops hosts h) fun answer s =>
      (∃ e, answer = .error e ∧ s.Holds registered r count)
        ∨ (answer = .ok () ∧ s.Holds registered (r.add h (.pipeline p)) count) := by
  have hremove : Returns (Session.Holds registered (r.add h (.pipeline p)) count)
      (hosts.removeTransformer h (.pipeline p)) fun _ => Session.Holds registered r count := by
    have hremoved := hhosts.removeTransformer (r.add h (.pipeline p)) count h (.pipeline p)
    rw [Registry.remove_add hnew] at hremoved
    exact hremoved
  exact returns_installOn_of Session.Holds.journal hcalm
    (hhosts.addTransformer r count h (.pipeline p)) hremove
    (hhosts.supportsRetransform _ count h) (hhosts.loadedClasses _ count h)
    (hhosts.retransform _ count h)

/-- **Taking a pipeline out** unregisters it, whether its classes can be restored or not. -/
theorem returns_resetOn (hhosts : hosts.Registers registered) :
    Returns (Session.Holds registered r count) (p.resetOn hosts h)
      fun _ => Session.Holds registered (r.remove h (.pipeline p)) count := by
  have hclear : Safe (Session.Holds registered (r.remove h (.pipeline p)) count)
      (clearRecord p.record) := by
    refine (settles_modify fun s hs => ⟨hs.registry, ?_⟩).safe
    rw [Array.size_modify]
    exact hs.records
  exact returns_resetOn_of Session.Holds.journal (hhosts.removeTransformer r count h (.pipeline p))
    hclear (hhosts.loadedClasses _ count h) (hhosts.retransform _ count h)

end Pipeline

end Pipelines

end AdviceWeaver

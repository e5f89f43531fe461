import AdviceWeaver.Proofs.Description.Seeing

/-!
# Looking types up

A pool that takes class files from a loader remembers what it described. If the loader gives the same
class file whenever it is asked for one, then it does not matter what a pool remembers: every name has
one answer, whether it was looked up before or not.

A session is looked at here as one class finds it: with at most one pool that its description is bound
to (`Session.Coherent`).

## Main results

* `TypePool.settles_describe` — a name of a pool has one answer.
* `TypeDescription.settles_resolve`, `TypeDescription.settles_stepLimit` — so has a name seen from a
  type, and the bound on the steps up from it.
-/

namespace AdviceWeaver

open Act

variable {ε : Type}

/-! ### Reliable class loaders -/

/-- A session in a fit world that has these pools and records. -/
structure Session.Fit (fits : ε → Prop) (pools : Array TypePool) (records : Array (List String))
    (s : Session ε) : Prop where
  world : fits s.world
  pools : s.pools = pools
  records : s.records = records

/-- The class loaders of fit worlds give the same description and the same class files whenever they
are asked, and leave the engine's own state alone. Fetching a class file may panic; nothing else
does. -/
structure LoaderOps.Reliable (ops : LoaderOps ε) (fits : ε → Prop) : Prop where
  describe (l : LoaderId) : ∃ d, ∀ pools records,
    Settles (Session.Fit fits pools records) (ops.describe l) (.ok d)
  classFile (l : LoaderId) (name : String) : ∃ v, ∀ pools records,
    Settles (Session.Fit fits pools records) (ops.classFile l name) v
  parent (l : LoaderId) (pools : Array TypePool) (records : Array (List String)) :
    Safe (Session.Fit fits pools records) (ops.parent l)
  canLoad (l : LoaderId) (name : String) (pools : Array TypePool)
    (records : Array (List String)) : Safe (Session.Fit fits pools records) (ops.canLoad l name)
  release (l : LoaderId) (pools : Array TypePool) (records : Array (List String)) :
    Safe (Session.Fit fits pools records) (ops.release l)
  extent {w w' : ε} (l : LoaderId) : fits w → fits w' → ops.extent w l = ops.extent w' l

/-- Where the types seen by the classes of a loader come from. -/
def TypeSource.ofLoader : Option LoaderId → TypeSource
  | some l => .loader l
  | none => .bootstrap

/-- The source gives class files, and not descriptions. -/
def TypeSource.HasClassFiles : TypeSource → Prop
  | .described .. => False
  | _ => True

/-- The pool of a class has class files, be they of its loader or of none. -/
theorem TypeSource.hasClassFiles_ofLoader (loader : Option LoaderId) :
    (ofLoader loader).HasClassFiles := by
  cases loader <;> trivial

namespace TypePool

variable {ops : LoaderOps ε} {fits : ε → Prop} {loader : Option LoaderId} {name : String}

/-- A name has one class file. -/
theorem settles_fetch (hops : ops.Reliable fits) (loader : Option LoaderId) (name : String) :
    ∃ v, ∀ pools records,
      Settles (Session.Fit fits pools records) (fetch ops (.ofLoader loader) name) v := by
  cases loader with
  | none => exact ⟨_, fun _ _ => settles_pure _⟩
  | some l =>
    obtain ⟨p | answer, hv⟩ := hops.classFile l (internalName name)
    · exact ⟨_, fun pools records => (hv pools records).bind_error⟩
    · rcases answer with e | _ | bytes
      · exact ⟨_, fun pools records => (hv pools records).bind (settles_pure _)⟩
      · exact ⟨_, fun pools records => (hv pools records).bind (settles_pure _)⟩
      · exact ⟨_, fun pools records => (hv pools records).bind (settles_pure _)⟩

end TypePool

/-! ### Coherent sessions -/

/-- The pool that the description of a class is bound to, and the loader of the class. -/
structure Home where
  pool : PoolId
  loader : Option LoaderId

/-- A session in a fit world, with a certain number of pools and certain records, in which the pool of
the class remembers nothing but what it would describe again. -/
structure Session.Coherent (ops : LoaderOps ε) (fits : ε → Prop) (home : Option Home) (size : Nat)
    (records : Array (List String)) (s : Session ε) : Prop where
  world : fits s.world
  size : s.pools.size = size
  records : s.records = records
  pool {h : Home} : home = some h → ∃ pool, s.pools[h.pool]? = some pool
    ∧ pool.source = .ofLoader h.loader
    ∧ ∀ name t, pool.cache.lookup name = some t → ∃ bytes, TypeDescription.read bytes = .ok t
      ∧ ∀ pools records, Settles (Fit fits pools records)
          (TypePool.fetch ops (.ofLoader h.loader) name) (.ok (.ok bytes))

namespace Session.Coherent

variable {ops : LoaderOps ε} {fits : ε → Prop} {home : Option Home} {size : Nat}
  {records : Array (List String)} {s : Session ε} {α : Type}

/-- The journal has no part in coherence. -/
theorem journal (hs : Coherent ops fits home size records s) (journal : Journal) :
    Coherent ops fits home size records { s with journal } :=
  ⟨hs.world, hs.size, hs.records, hs.pool⟩

/-- A session that kept its pools and records is still coherent. -/
theorem of_fit (hs : Coherent ops fits home size records s) {s' : Session ε}
    (hs' : Fit fits s.pools s.records s') : Coherent ops fits home size records s' := by
  refine ⟨hs'.world, hs'.pools ▸ hs.size, hs'.records.trans hs.records, ?_⟩
  rw [hs'.pools]
  exact hs.pool

/-- What leaves pools and records alone keeps a session coherent. -/
theorem settles_of_fit {a : Act ε α} {v : Except Panic α}
    (h : ∀ pools records, Settles (Fit fits pools records) a v) :
    Settles (Coherent ops fits home size records) a v := by
  intro s hs
  obtain ⟨s', hrun, hs'⟩ := h s.pools s.records s ⟨hs.world, rfl, rfl⟩
  exact ⟨s', hrun, hs.of_fit hs'⟩

/-- What is safe for whatever pools and records is safe in coherent sessions. -/
theorem safe_of_fit {a : Act ε α} (h : ∀ pools records, Safe (Fit fits pools records) a) :
    Safe (Coherent ops fits home size records) a := by
  intro s hs
  obtain ⟨x, s', hrun, hs'⟩ := h s.pools s.records s ⟨hs.world, rfl, rfl⟩
  exact ⟨x, s', hrun, hs.of_fit hs'⟩

end Session.Coherent

/-! ### Names of a pool -/

section Home

variable {ops : LoaderOps ε} {fits : ε → Prop} {home : Option Home} {h : Home} {size : Nat}
  {records : Array (List String)} {s : Session ε}

/-- Remembering what would be described again keeps a session coherent. -/
theorem TypePool.settles_remember {name : String} {t : TypeDescription} {bytes : Bytes}
    (hread : TypeDescription.read bytes = .ok t)
    (hfetch : ∀ pools records, Settles (Session.Fit fits pools records)
      (fetch ops (.ofLoader h.loader) name) (.ok (.ok bytes))) :
    Settles (Session.Coherent ops fits (some h) size records) (remember h.pool name t) (.ok ()) := by
  refine settles_modify fun s hs => ⟨hs.world, ?_, hs.records, fun {h'} heq => ?_⟩
  · rw [Array.size_modify, hs.size]
  · cases heq
    obtain ⟨pool, hpool, hsource, hcache⟩ := hs.pool rfl
    refine ⟨{ pool with cache := (name, t) :: pool.cache }, ?_, hsource,
      forall_lookup_cons hcache ⟨bytes, hread, hfetch⟩⟩
    rw [Array.getElem?_modify, if_pos rfl, hpool]
    rfl

/-- What a pool does for a name that it does not remember. -/
def TypePool.lookUp (ops : LoaderOps ε) (id : PoolId) (source : TypeSource) (name : String) :
    Act ε (Except MatchError TypeDescription) := do
  match ← fetch ops source name with
  | .error e => return .error e
  | .ok bytes =>
    match TypeDescription.read bytes with
    | .error e => return .error (.format e)
    | .ok t =>
      remember id name t
      return .ok { t with pool := some id }

/-- A pool of class files is asked for what it does not remember only. -/
theorem TypePool.run_describe {source : TypeSource} {cache : List (String × TypeDescription)}
    {id : PoolId} {name : String} (hpool : s.pools[id]? = some ⟨source, cache⟩)
    (hsource : source.HasClassFiles) :
    (describe ops id name).run s
      = (match cache.lookup name with
        | some t => pure (.ok { t with pool := some id })
        | none => lookUp ops id source name : Act ε _).run s := by
  unfold describe
  have hget : (get : Act ε (Session ε)).run s = (.ok s, s) := rfl
  refine (run_bind_ok hget).trans ?_
  cases source with
  | described types count => exact hsource.elim
  | files answers count =>
    simp only [hpool]
    rfl
  | loader l =>
    simp only [hpool]
    rfl
  | bootstrap =>
    simp only [hpool]
    rfl

/-- A name whose class file is read is looked up, by what is remembered or by reading it again. -/
theorem TypePool.settles_lookUp_of_read {name : String} {t : TypeDescription} {bytes : Bytes}
    (hread : TypeDescription.read bytes = .ok t)
    (hfetch : ∀ pools records, Settles (Session.Fit fits pools records)
      (fetch ops (.ofLoader h.loader) name) (.ok (.ok bytes))) :
    Settles (Session.Coherent ops fits (some h) size records)
      (lookUp ops h.pool (.ofLoader h.loader) name) (.ok (.ok { t with pool := some h.pool })) := by
  refine (Session.Coherent.settles_of_fit hfetch).bind ?_
  simp only [hread]
  exact (settles_remember hread hfetch).bind (settles_pure _)

/-- What is answered for a name, with the description bound to a pool. -/
def TypePool.handedOut (id : PoolId) (v : Except Panic (Except MatchError TypeDescription)) :
    Except Panic (Except MatchError TypeDescription) :=
  v.map fun answer => answer.map fun t => { t with pool := some id }

/-- A name has one answer for every pool of a loader that can be relied on, bound to the pool that was
asked. -/
theorem TypePool.settles_lookUp (hops : ops.Reliable fits) (loader : Option LoaderId)
    (name : String) :
    ∃ v, ∀ (h : Home) (size : Nat) (records : Array (List String)), h.loader = loader →
      Settles (Session.Coherent ops fits (some h) size records)
        (lookUp ops h.pool (.ofLoader loader) name) (handedOut h.pool v) := by
  obtain ⟨v, hv⟩ := settles_fetch hops loader name
  have hv' (h : Home) (size : Nat) (records : Array (List String)) :
      Settles (Session.Coherent ops fits (some h) size records) (fetch ops (.ofLoader loader) name) v :=
    Session.Coherent.settles_of_fit hv
  rcases v with p | e | bytes
  · exact ⟨.error p, fun h size records _ => (hv' h size records).bind_error⟩
  · exact ⟨.ok (.error e), fun h size records _ => (hv' h size records).bind (settles_pure _)⟩
  · cases hread : TypeDescription.read bytes with
    | error e =>
      refine ⟨.ok (.error (.format e)), fun h size records _ => (hv' h size records).bind ?_⟩
      simp only [hread]
      exact settles_pure _
    | ok t =>
      refine ⟨.ok (.ok t), fun h size records hloader => ?_⟩
      subst hloader
      exact settles_lookUp_of_read hread hv

/-- **A name of the pool** has one answer, whether it was looked up before or not, and whichever number
the pool has. -/
theorem TypePool.settles_describe (hops : ops.Reliable fits) (loader : Option LoaderId)
    (name : String) :
    ∃ v, ∀ (h : Home) (size : Nat) (records : Array (List String)), h.loader = loader →
      Settles (Session.Coherent ops fits (some h) size records) (describe ops h.pool name)
        (handedOut h.pool v) := by
  obtain ⟨v, hv⟩ := settles_lookUp hops loader name
  refine ⟨v, fun h size records hloader s hs => ?_⟩
  obtain ⟨⟨source, cache⟩, hpool, hsource, hcache⟩ := hs.pool rfl
  obtain rfl : source = .ofLoader h.loader := hsource
  rw [run_describe hpool (TypeSource.hasClassFiles_ofLoader h.loader), hloader]
  cases hlookup : cache.lookup name with
  | none =>
    subst hloader
    exact hv h size records rfl s hs
  | some t =>
    obtain ⟨bytes, hread, hfetch⟩ := hcache name t hlookup
    subst hloader
    rw [(hv h size records rfl).unique hs (settles_lookUp_of_read hread hfetch)]
    exact ⟨s, rfl, hs⟩

end Home

/-! ### Types seen from a class -/

namespace TypeDescription

/-- The description is bound to the pool of the class, or to none. -/
def LivesAt (home : Option Home) (t : TypeDescription) : Prop :=
  t.pool = none ∨ ∃ h, home = some h ∧ t.pool = some h.pool

/-- The description, bound to the pool of a class if it is bound at all. -/
def boundTo (home : Option Home) (t : TypeDescription) : TypeDescription :=
  { t with pool := t.pool.bind fun _ => home.map Home.pool }

/-- A description that lives at a home is bound there already. -/
theorem LivesAt.boundTo_eq {home : Option Home} {t : TypeDescription} (ht : t.LivesAt home) :
    t.boundTo home = t := by
  have hpool : (t.pool.bind fun _ => home.map Home.pool) = t.pool := by
    rcases ht with hnone | ⟨h, rfl, hsome⟩
    · rw [hnone]
      rfl
    · rw [hsome]
      rfl
  rw [boundTo, hpool]

-- Several classes of one loader, each in its own sessions.
variable {ops : LoaderOps ε} {fits : ε → Prop} {ι : Type} {home : ι → Option Home} {size : ι → Nat}
  {records : ι → Array (List String)} {loader? : Option (Option LoaderId)}
  (hhome : ∀ i, (home i).map Home.loader = loader?)
include hhome

/-- **A name seen from a type** has one answer, which is bound where the type is. -/
theorem settles_resolve (hops : ops.Reliable fits) (t : TypeDescription) (name : String) :
    ∃ v : Except Panic (Except MatchError TypeDescription), ∀ i,
      Settles (Session.Coherent ops fits (home i) (size i) (records i))
        ((t.boundTo (home i)).resolve ops name)
        (v.map fun answer => answer.map (boundTo (home i))) := by
  unfold resolve
  split
  · exact ⟨.ok (.ok (ofName rootClass)), fun i => settles_pure _⟩
  · cases hpool : t.pool with
    | none =>
      refine ⟨.ok (.error (.unresolvable name "no type pool")), fun i => ?_⟩
      simp only [boundTo, hpool, Option.bind_none]
      exact settles_pure _
    | some id =>
      cases loader? with
      | none =>
        refine ⟨.ok (.error (.unresolvable name "no type pool")), fun i => ?_⟩
        simp only [boundTo, hpool, Option.bind_some, Option.map_eq_none_iff.1 (hhome i),
          Option.map_none]
        exact settles_pure _
      | some loader =>
        obtain ⟨v, hv⟩ := TypePool.settles_describe hops loader name
        refine ⟨TypePool.handedOut id v, fun i => ?_⟩
        obtain ⟨h, hi, hloader⟩ := Option.map_eq_some_iff.1 (hhome i)
        have hanswer : (TypePool.handedOut id v).map (fun answer => answer.map (boundTo (home i)))
            = TypePool.handedOut h.pool v := by
          rw [hi]
          rcases v with p | e | u
          · rfl
          · rfl
          · rfl
        rw [hanswer]
        simp only [boundTo, hpool, Option.bind_some, hi, Option.map_some]
        exact hv h _ _ hloader

/-- The bound on the steps up from a type is the same whenever it is asked for. -/
theorem settles_stepLimit (hops : ops.Reliable fits) (t : TypeDescription) :
    ∃ n, ∀ i, Settles (Session.Coherent ops fits (home i) (size i) (records i))
      ((t.boundTo (home i)).stepLimit ops) (.ok n) := by
  by_cases hgood : ∃ w, fits w
  · obtain ⟨w, hw⟩ := hgood
    have hextent (i : ι) (s : Session ε)
        (hs : s.Coherent ops fits (home i) (size i) (records i)) :
        (t.boundTo (home i)).pool.map (TypePool.extent ops s)
          = t.pool.bind fun _ => loader?.map fun loader => match loader with
            | some l => ops.extent w l
            | none => 0 := by
      cases hpool : t.pool with
      | none => simp only [boundTo, hpool, Option.bind_none, Option.map_none]
      | some id =>
        rw [← hhome i]
        cases hi : home i with
        | none => simp only [boundTo, hpool, Option.bind_some, Option.map_none]
        | some h =>
          obtain ⟨pool, hpoolAt, hsource, -⟩ := hs.pool hi
          simp only [boundTo, hpool, Option.bind_some, Option.map_some, TypePool.extent, hpoolAt,
            hsource]
          cases h.loader with
          | none => rfl
          | some l => exact congrArg some (hops.extent l hs.world hw)
    refine ⟨t.superNames.length + ((t.pool.bind fun _ => loader?.map fun loader => match loader with
      | some l => ops.extent w l
      | none => 0).getD 0) + 2, fun i => settles_get_bind fun s hs => ⟨s, ?_, hs⟩⟩
    rw [hextent i s hs]
    rfl
  · exact ⟨0, fun i s hs => absurd ⟨_, hs.world⟩ hgood⟩

end TypeDescription

end AdviceWeaver

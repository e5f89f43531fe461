import AdviceWeaver.Proofs.Pipeline.Ignored

/-!
# What a pool remembers

A pool of class files asks its source for a name only if no earlier lookup of this name was answered. What
it answers does not show that: every lookup comes to what reading the class file anew would come to
(`TypePool.uncached`), be it a description or a failure.

This is said of a pool in use: names are described, the super types of what it handed out are collected, and
matchers are asked about it, which may look for super types themselves. Such a run is told as the sequence
of its lookups (`TypePool.Looks`), each of which either leaves the session as it is or asks the source once
(`TypePool.LooksUp`).

## Main results

* `TypePool.exists_looksUp` — one lookup, by what was looked up before.
* `TypePool.exists_settles_use` — a use of the pool has one outcome, whatever is remembered.
* `TypePool.exists_lookups` — the lookups of any sequence of uses.
-/

namespace AdviceWeaver

open Act

variable {ε : Type} {ops : LoaderOps ε} {fits : ε → Prop} {id : PoolId} {source : TypeSource}
  {given : String → Except MatchError (Option Bytes)}

/-! ### Sources -/

namespace TypePool

/-- The class file of a binary name, by what is given for internal names. -/
def givenFile (given : String → Except MatchError (Option Bytes)) (name : String) :
    Except MatchError Bytes :=
  match given (internalName name) with
  | .ok (some bytes) => .ok bytes
  | .ok none => .error (.unresolvable name "class file not found")
  | .error e => .error e

/-- What a pool that remembers nothing describes for a binary name. -/
def uncached (id : PoolId) (given : String → Except MatchError (Option Bytes)) (name : String) :
    Except MatchError TypeDescription :=
  match givenFile given name with
  | .error e => .error e
  | .ok bytes =>
    match TypeDescription.read bytes with
    | .error e => .error (.format e)
    | .ok t => .ok { t with pool := some id }

/-- What is described is bound to the pool that was asked. -/
theorem pool_of_uncached {name : String} {u : TypeDescription}
    (h : uncached id given name = .ok u) : u.pool = some id := by
  unfold uncached at h
  split at h
  · cases h
  · split at h
    · cases h
    · cases h
      rfl

end TypePool

/-- In fit worlds, the source gives these class files whenever it is asked, and leaves the pools
alone. -/
structure TypeSource.Gives (ops : LoaderOps ε) (fits : ε → Prop) (source : TypeSource)
    (given : String → Except MatchError (Option Bytes)) : Prop where
  hasClassFiles : source.HasClassFiles
  fetch (name : String) {s : Session ε} : fits s.world →
    ∃ s', (TypePool.fetch ops source name).run s = (.ok (TypePool.givenFile given name), s')
      ∧ fits s'.world ∧ s'.pools = s.pools
  extent {l : LoaderId} {w w' : ε} : source = .loader l → fits w → fits w' →
    ops.extent w l = ops.extent w' l

namespace TypeSource

/-- What a source of class files answers. -/
theorem gives_files (answers : String → SourceAnswer) (count : Nat) :
    (files answers count).Gives ops (fun _ => True) fun internal =>
      match answers internal with
      | .found bytes => .ok (some bytes)
      | .missing => .ok none
      | .fails message => .error (.loader message) where
  hasClassFiles := trivial
  fetch name s _ := by
    obtain ⟨s', hnote, hpools⟩ : ∃ s', (note (.text ("source:" ++ internalName name))).run s
        = (.ok (), s') ∧ s'.pools = s.pools := ⟨_, rfl, rfl⟩
    refine ⟨s', (run_bind_ok hnote).trans ?_, trivial, hpools⟩
    simp only [TypePool.givenFile]
    cases answers (internalName name) <;> rfl
  extent := nofun

/-- Above the bootstrap loader, nothing is given. -/
theorem gives_bootstrap : bootstrap.Gives ops fits fun internal =>
    .error (.unresolvable (binaryName internal) "bootstrap class loader is not searchable") where
  hasClassFiles := trivial
  fetch _ s hs := ⟨s, rfl, hs, rfl⟩
  extent := nofun

/-- What a class loader sees that answers in the same way whenever it is asked. -/
theorem gives_loader {l : LoaderId} {answers : String → Except LoaderError (Option Bytes)}
    (hanswers : ∀ internal s, fits s.world →
      ∃ s', (ops.classFile l internal).run s = (.ok (answers internal), s')
        ∧ fits s'.world ∧ s'.pools = s.pools)
    (hextent : ∀ w w', fits w → fits w' → ops.extent w l = ops.extent w' l) :
    (loader l).Gives ops fits fun internal =>
      (answers internal).mapError fun e => .loader e.message where
  hasClassFiles := trivial
  fetch name s hs := by
    obtain ⟨s', hrun, hs', hpools⟩ := hanswers (internalName name) s hs
    refine ⟨s', (run_bind_ok hrun).trans ?_, hs', hpools⟩
    simp only [TypePool.givenFile]
    rcases answers (internalName name) with e | _ | bytes <;> rfl
  extent h hw hw' := by
    cases h
    exact hextent _ _ hw hw'

end TypeSource

/-! ### Lookups -/

/-- A name that is looked up, what is answered, and whether the source is asked. -/
structure Lookup where
  name : String
  answer : Except MatchError TypeDescription
  consulted : Bool

/-- Among earlier lookups, none of the name was answered. -/
def Lookup.Pending (past : List Lookup) (name : String) : Prop :=
  ∀ c ∈ past, c.name = name → ∃ e, c.answer = .error e

/-- A name is still pending after one lookup more if that lookup was of another name, or failed. -/
theorem Lookup.pending_append {past : List Lookup} {c : Lookup} {name : String} :
    Pending (past ++ [c]) name
      ↔ Pending past name ∧ (c.name = name → ∃ e, c.answer = .error e) := by
  simp only [Pending, List.forall_mem_append, List.forall_mem_singleton]

/-- The sessions differ in their pools only. -/
def Session.SameButPools (s s' : Session ε) : Prop :=
  ∃ pools, s' = { s with pools }

namespace TypePool

/-- One lookup, after those of `past`. If the source is asked, it is asked once, and nothing is written
but the pools besides; otherwise the session stays as it is. -/
structure LooksUp (ops : LoaderOps ε) (id : PoolId) (source : TypeSource)
    (given : String → Except MatchError (Option Bytes)) (past : List Lookup) (c : Lookup)
    (s s' : Session ε) : Prop where
  run : (describe ops id c.name).run s = (.ok c.answer, s')
  answer_eq : c.answer = uncached id given c.name
  consulted_iff : c.consulted = true ↔ Lookup.Pending past c.name
  asked : c.consulted = true →
    ∃ s₁, (fetch ops source c.name).run s = (.ok (givenFile given c.name), s₁) ∧ s₁.SameButPools s'
  remembered : c.consulted = false → s' = s

/-- From `s`, these names are looked up one after the other, after those of `past`. Between the lookups
nothing but the journal is written. -/
inductive Looks (ops : LoaderOps ε) (id : PoolId) (source : TypeSource)
    (given : String → Except MatchError (Option Bytes)) :
    List Lookup → List Lookup → Session ε → Session ε → Prop
  | nil {past : List Lookup} {s s' : Session ε} (hsame : s.SameButJournal s') :
      Looks ops id source given past [] s s'
  | cons {past calls : List Lookup} {c : Lookup} {s s₁ s₂ s' : Session ε}
      (hsame : s.SameButJournal s₁) (hstep : LooksUp ops id source given past c s₁ s₂)
      (hrest : Looks ops id source given (past ++ [c]) calls s₂ s') :
      Looks ops id source given past (c :: calls) s s'

section Looks

variable {past before after calls calls' : List Lookup} {c : Lookup} {s s₁ s' : Session ε}

/-- What is written to the journal beforehand makes no difference. -/
theorem Looks.of_same (hsame : s.SameButJournal s₁)
    (h : Looks ops id source given past calls s₁ s') :
    Looks ops id source given past calls s s' := by
  cases h with
  | nil hsame' => exact .nil (hsame.trans hsame')
  | cons hsame' hstep hrest => exact .cons (hsame.trans hsame') hstep hrest

/-- Lookups go on after those that were made before. -/
theorem Looks.append (h : Looks ops id source given past calls s s₁)
    (h' : Looks ops id source given (past ++ calls) calls' s₁ s') :
    Looks ops id source given past (calls ++ calls') s s' := by
  induction h with
  | nil hsame =>
    rw [List.append_nil] at h'
    exact h'.of_same hsame
  | cons hsame hstep _ ih =>
    rw [List.append_cons] at h'
    exact .cons hsame hstep (ih h')

/-- A single lookup. -/
theorem LooksUp.looks (h : LooksUp ops id source given past c s s') :
    Looks ops id source given past [c] s s' :=
  .cons (.refl s) h (.nil (.refl s'))

/-- Each lookup of a run comes after those before it. -/
theorem Looks.exists_looksUp (h : Looks ops id source given past (before ++ c :: after) s s') :
    ∃ s₁ s₂, LooksUp ops id source given (past ++ before) c s₁ s₂ := by
  induction before generalizing past s with
  | nil =>
    cases h with
    | cons _ hstep _ => exact ⟨_, _, by rwa [List.append_nil]⟩
  | cons b rest ih =>
    cases h with
    | cons _ _ hrest =>
      rw [List.append_cons]
      exact ih hrest

end Looks

/-! ### What is remembered -/

/-- A session in a fit world, in which the pool remembers those names that were looked up and answered,
and would describe them again as it did. -/
structure Remembers (fits : ε → Prop) (id : PoolId) (source : TypeSource)
    (given : String → Except MatchError (Option Bytes)) (past : List Lookup) (s : Session ε) :
    Prop where
  world : fits s.world
  pool : ∃ cache, s.pools[id]? = some ⟨source, cache⟩
    ∧ (∀ name, cache.lookup name = none ↔ Lookup.Pending past name)
    ∧ ∀ name t, cache.lookup name = some t → uncached id given name = .ok { t with pool := some id }

section Remembers

variable {past : List Lookup} {s s' : Session ε}

/-- A new pool remembers nothing. -/
theorem remembers_nil (hs : fits s.world) (hpool : s.pools[id]? = some ⟨source, []⟩) :
    Remembers fits id source given [] s :=
  ⟨hs, [], hpool, fun _ => ⟨fun _ => nofun, fun _ => rfl⟩, nofun⟩

/-- What a pool remembers is told by the world and the pools alone. -/
theorem Remembers.of_pools_eq (hs : Remembers fits id source given past s) (hworld : fits s'.world)
    (hpools : s'.pools = s.pools) : Remembers fits id source given past s' := by
  refine ⟨hworld, ?_⟩
  rw [hpools]
  exact hs.pool

/-- A failure is not remembered. -/
theorem Remembers.failed (hs : Remembers fits id source given past s) {c : Lookup} {e : MatchError}
    (hc : c.answer = .error e) : Remembers fits id source given (past ++ [c]) s := by
  obtain ⟨cache, hpool, hpending, hcache⟩ := hs.pool
  refine ⟨hs.world, cache, hpool, fun name => ?_, hcache⟩
  rw [hpending, Lookup.pending_append]
  exact ⟨fun h => ⟨h, fun _ => ⟨e, hc⟩⟩, And.left⟩

/-- What is remembered may be looked up again. -/
theorem Remembers.known (hs : Remembers fits id source given past s) {c : Lookup}
    (hc : ¬ Lookup.Pending past c.name) : Remembers fits id source given (past ++ [c]) s := by
  obtain ⟨cache, hpool, hpending, hcache⟩ := hs.pool
  refine ⟨hs.world, cache, hpool, fun name => ?_, hcache⟩
  rw [hpending, Lookup.pending_append]
  refine ⟨fun h => ⟨h, ?_⟩, And.left⟩
  rintro rfl
  exact absurd h hc

/-- What is described is remembered from then on. -/
theorem Remembers.remember (hs : Remembers fits id source given past s) {c : Lookup}
    {t : TypeDescription} (hc : c.answer = .ok { t with pool := some id })
    (hanswer : uncached id given c.name = .ok { t with pool := some id }) :
    ∃ s', (remember id c.name t).run s = (.ok (), s') ∧ s.SameButPools s'
      ∧ Remembers fits id source given (past ++ [c]) s' := by
  obtain ⟨cache, hpool, hpending, hcache⟩ := hs.pool
  refine ⟨_, rfl, ⟨_, rfl⟩, hs.world, (c.name, t) :: cache, ?_, fun name => ?_,
    forall_lookup_cons hcache hanswer⟩
  · show (s.pools.modify id _)[id]? = _
    rw [Array.getElem?_modify, if_pos rfl, hpool]
    rfl
  · rw [Lookup.pending_append, ← hpending, List.lookup_cons]
    by_cases hname : name = c.name
    · simp [hname, hc]
    · have hother : (name == c.name) = false := beq_false_of_ne hname
      simp only [hother, Ne.symm hname, false_implies, and_true]

end Remembers

/-- What is done for a name that is not remembered. -/
theorem exists_run_lookUp (hgives : source.Gives ops fits given) {past : List Lookup}
    {s : Session ε} (hs : Remembers fits id source given past s) (name : String) :
    ∃ s₁ s', (fetch ops source name).run s = (.ok (givenFile given name), s₁)
      ∧ s₁.SameButPools s' ∧ (lookUp ops id source name).run s = (.ok (uncached id given name), s')
      ∧ Remembers fits id source given (past ++ [⟨name, uncached id given name, true⟩]) s' := by
  obtain ⟨s₁, hfetch, hfits, hpools⟩ := hgives.fetch name hs.world
  have hs₁ := hs.of_pools_eq hfits hpools
  have hrun : (lookUp ops id source name).run s = _ := run_bind_ok hfetch
  cases hfile : givenFile given name with
  | error e =>
    have hanswer : uncached id given name = .error e := by simp only [uncached, hfile]
    simp only [hfile] at hrun hfetch
    exact ⟨s₁, s₁, hfetch, ⟨_, rfl⟩, hanswer ▸ hrun, hs₁.failed hanswer⟩
  | ok bytes =>
    cases hread : TypeDescription.read bytes with
    | error e =>
      have hanswer : uncached id given name = .error (.format e) := by
        simp only [uncached, hfile, hread]
      simp only [hfile, hread] at hrun hfetch
      exact ⟨s₁, s₁, hfetch, ⟨_, rfl⟩, hanswer ▸ hrun, hs₁.failed hanswer⟩
    | ok t =>
      have hanswer : uncached id given name = .ok { t with pool := some id } := by
        simp only [uncached, hfile, hread]
      simp only [hfile, hread] at hrun hfetch
      obtain ⟨s', hremember, hsame, hs'⟩ := hs₁.remember (c := ⟨name, uncached id given name, true⟩)
        hanswer hanswer
      exact ⟨s₁, s', hfetch, hsame, hanswer ▸ hrun.trans (run_bind_ok hremember), hs'⟩

/-- **One lookup:** the source is asked if the name was never answered before, and what is answered does
not depend on that. -/
theorem exists_looksUp (hgives : source.Gives ops fits given) {past : List Lookup} {s : Session ε}
    (hs : Remembers fits id source given past s) (name : String) :
    ∃ consulted s', LooksUp ops id source given past ⟨name, uncached id given name, consulted⟩ s s'
      ∧ Remembers fits id source given
        (past ++ [⟨name, uncached id given name, consulted⟩]) s' := by
  obtain ⟨cache, hpool, hpending, hcache⟩ := hs.pool
  have hrun := @run_describe ε ops s source cache id name hpool hgives.hasClassFiles
  have hiff := hpending name
  cases hlookup : cache.lookup name with
  | some t =>
    have hknown : ¬ Lookup.Pending past name := fun h =>
      Option.some_ne_none t (hlookup.symm.trans (hiff.2 h))
    rw [hlookup] at hrun
    refine ⟨false, s, ⟨?_, rfl, ?_, fun h => absurd h Bool.false_ne_true, fun _ => rfl⟩,
      hs.known hknown⟩
    · rw [hcache name t hlookup]
      exact hrun
    · exact ⟨fun h => absurd h Bool.false_ne_true, fun h => absurd h hknown⟩
  | none =>
    rw [hlookup] at hrun
    obtain ⟨s₁, s', hfetch, hsame, hlookUp, hs'⟩ := exists_run_lookUp hgives hs name
    exact ⟨true, s', ⟨hrun.trans hlookUp, rfl, ⟨fun _ => hiff.1 hlookup, fun _ => rfl⟩,
      fun _ => ⟨s₁, hfetch, hsame⟩, fun h => absurd h.symm Bool.false_ne_true⟩, hs'⟩

/-! ### Sessions that are reached by lookups -/

/-- The session is reached by lookups from another one, in which some names were looked up before. -/
def Reached (ops : LoaderOps ε) (fits : ε → Prop) (id : PoolId) (source : TypeSource)
    (given : String → Except MatchError (Option Bytes)) (start : List Lookup × Session ε)
    (s : Session ε) : Prop :=
  ∃ calls, Looks ops id source given start.1 calls start.2 s
    ∧ Remembers fits id source given (start.1 ++ calls) s

section Reached

variable {start : List Lookup × Session ε} {past : List Lookup} {s s₀ : Session ε}

/-- A session whose pool remembers the lookups so far is reached by no further lookup. -/
theorem Remembers.reached (hs : Remembers fits id source given past s) :
    Reached ops fits id source given (past, s) s :=
  ⟨[], .nil (.refl s), by rwa [List.append_nil]⟩

/-- What is reached does not depend on the journal. -/
theorem Reached.journal (hs : Reached ops fits id source given start s) (journal : Journal) :
    Reached ops fits id source given start { s with journal } := by
  obtain ⟨calls, hlooks, hremembers⟩ := hs
  refine ⟨calls, ?_, hremembers.of_pools_eq hremembers.world rfl⟩
  rw [← List.append_nil calls]
  exact hlooks.append (.nil ⟨journal, rfl⟩)

variable (hgives : source.Gives ops fits given)
include hgives

/-- A name that is described has one answer. -/
theorem settles_describe_reached (name : String) :
    Settles (Reached ops fits id source given start) (describe ops id name)
      (.ok (uncached id given name)) := by
  rintro s ⟨calls, hlooks, hs⟩
  obtain ⟨consulted, s', hstep, hs'⟩ := exists_looksUp hgives hs name
  refine ⟨s', hstep.run, calls ++ [_], hlooks.append hstep.looks, ?_⟩
  rwa [← List.append_assoc]

/-- So has a name that is seen from what the pool handed out. -/
theorem exists_settles_resolve_reached (t : TypeDescription) (name : String) :
    ∃ answer : Except MatchError TypeDescription, ∀ start,
      Settles (Reached ops fits id source given start)
        ((t.boundTo (some ⟨id, none⟩)).resolve ops name)
        (.ok (answer.map (TypeDescription.boundTo (some ⟨id, none⟩)))) := by
  unfold TypeDescription.resolve
  split
  · exact ⟨.ok (.ofName rootClass), fun _ => settles_pure _⟩
  · cases hpool : t.pool with
    | none =>
      refine ⟨.error (.unresolvable name "no type pool"), fun _ => ?_⟩
      simp only [TypeDescription.boundTo, hpool, Option.bind_none]
      exact settles_pure _
    | some _ =>
      refine ⟨uncached id given name, fun _ => ?_⟩
      have hbound : (uncached id given name).map (TypeDescription.boundTo (some ⟨id, none⟩))
          = uncached id given name := by
        cases hanswer : uncached id given name with
        | error e => rfl
        | ok u =>
          have hlives : u.LivesAt (some ⟨id, none⟩) := .inr ⟨_, rfl, pool_of_uncached hanswer⟩
          exact congrArg Except.ok hlives.boundTo_eq
      rw [hbound]
      simp only [TypeDescription.boundTo, hpool, Option.bind_some, Option.map_some]
      exact settles_describe_reached hgives name

/-- The pool has as many names as before. -/
theorem Remembers.extent_eq {past₀ : List Lookup} (hs₀ : Remembers fits id source given past₀ s₀)
    (hs : Remembers fits id source given past s) : extent ops s id = extent ops s₀ id := by
  obtain ⟨cache, hpool, -⟩ := hs.pool
  obtain ⟨cache₀, hpool₀, -⟩ := hs₀.pool
  unfold extent
  rw [hpool, hpool₀]
  cases source with
  | described types count => rfl
  | files answers count => rfl
  | loader l => exact hgives.extent rfl hs.world hs₀.world
  | bootstrap => rfl

/-- The bound of a climb is the same however many lookups were made before, as it counts what the loader
knows. -/
theorem exists_settles_stepLimit_reached (hs₀ : Remembers fits id source given past s₀)
    (t : TypeDescription) : ∃ n, ∀ start, Settles (Reached ops fits id source given start)
      ((t.boundTo (some ⟨id, none⟩)).stepLimit ops) (.ok n) := by
  refine ⟨t.superNames.length
    + ((t.boundTo (some ⟨id, none⟩)).pool.map (extent ops s₀)).getD 0 + 2, fun start => ?_⟩
  refine settles_get_bind fun s hs => ⟨s, ?_, hs⟩
  obtain ⟨calls, -, hremembers⟩ := hs
  have hextent : (t.boundTo (some ⟨id, none⟩)).pool.map (extent ops s)
      = (t.boundTo (some ⟨id, none⟩)).pool.map (extent ops s₀) := by
    cases hpool : t.pool with
    | none => simp only [TypeDescription.boundTo, hpool, Option.bind_none, Option.map_none]
    | some _ =>
      simp only [TypeDescription.boundTo, hpool, Option.bind_some, Option.map_some,
        hs₀.extent_eq hgives hremembers]
  rw [hextent]
  rfl

/-- Collecting super types comes to one end, if each name that is seen does. -/
theorem exists_settles_superTypesFrom_reached (t : TypeDescription) (limit : Nat) (f : Frontier)
    (done : List TypeDescription) : ∃ result, ∀ start,
      Settles (Reached ops fits id source given start)
        ((t.boundTo (some ⟨id, none⟩)).superTypesFrom ops limit f done) (.ok result) := by
  induction limit generalizing f done with
  | zero => exact ⟨_, fun _ => settles_pure _⟩
  | succ limit ih =>
    unfold TypeDescription.superTypesFrom
    split
    · exact ⟨_, fun _ => settles_pure _⟩
    · next name rest _ =>
      obtain ⟨answer, hanswer⟩ := exists_settles_resolve_reached hgives t name
      rcases answer with e | u
      · exact ⟨_, fun start => (hanswer start).bind (settles_pure _)⟩
      · obtain ⟨result, hresult⟩ := ih ((Frontier.mk f.seen rest).add u) (u.boundTo _ :: done)
        exact ⟨result, fun start => (hanswer start).bind (hresult start)⟩

end Reached

end TypePool

/-! ### Uses of a pool -/

/-- What a pool is used for: to describe a name, to collect the super types of something, or to ask a
matcher about it. -/
inductive PoolUse where
  | describe (name : String)
  | superTypes (t : TypeDescription)
  | ask (m : Matcher .type) (t : TypeDescription)

/-- What a use comes to. A matcher may panic. -/
inductive PoolAnswer where
  | described (answer : Except MatchError TypeDescription)
  | listed (answer : Except MatchError (List TypeDescription))
  | judged (verdict : Except Panic Answer)

namespace PoolUse

/-- What is looked at is bound to the pool, as all is that the pool hands out. -/
def BoundTo (id : PoolId) : PoolUse → Prop
  | .describe _ => True
  | .superTypes t => t.pool = some id
  | .ask _ t => t.pool = some id

/-- Uses a pool once. -/
def run (ops : LoaderOps ε) (id : PoolId) : PoolUse → Act ε PoolAnswer
  | .describe name => return .described (← TypePool.describe ops id name)
  | .superTypes t => return .listed (← t.superTypes ops)
  | .ask m t => return .judged (← attempt (m.eval ops t))

end PoolUse

namespace TypePool

variable {past : List Lookup} {s s₀ : Session ε}

/-- **A use of the pool** comes to one end, whatever was looked up before. -/
theorem exists_settles_use (hgives : source.Gives ops fits given)
    (hs₀ : Remembers fits id source given past s₀) {use : PoolUse} (huse : use.BoundTo id) :
    ∃ answer, ∀ start, Settles (Reached ops fits id source given start) (use.run ops id)
      (.ok answer) := by
  cases use with
  | describe name =>
    exact ⟨_, fun _ => (settles_describe_reached hgives name).bind (settles_pure _)⟩
  | superTypes t =>
    have hlives : t.LivesAt (some ⟨id, none⟩) := .inr ⟨_, rfl, huse⟩
    obtain ⟨n, hn⟩ := exists_settles_stepLimit_reached hgives hs₀ t
    obtain ⟨result, hresult⟩ := exists_settles_superTypesFrom_reached hgives t n (.above t) []
    rw [hlives.boundTo_eq] at hn hresult
    exact ⟨_, fun start => ((hn start).bind (hresult start)).bind (settles_pure _)⟩
  | ask m t =>
    have hlives : t.LivesAt (some ⟨id, none⟩) := .inr ⟨_, rfl, huse⟩
    have hresolve (t : TypeDescription) (name : String) :
        ∃ v : Except Panic (Except MatchError TypeDescription), ∀ start,
          Settles (Reached ops fits id source given start)
            ((t.boundTo (some ⟨id, none⟩)).resolve ops name)
            (v.map fun answer => answer.map (TypeDescription.boundTo (some ⟨id, none⟩))) := by
      obtain ⟨answer, hanswer⟩ := exists_settles_resolve_reached hgives t name
      exact ⟨.ok answer, hanswer⟩
    have hsteady : m.IsSteady fun h => ∃ _ : List Lookup × Session ε, some ⟨id, none⟩ = h :=
      (m.isSteady_singleton _).mono fun _ ⟨_, h⟩ => h.symm
    have hjournal (start : List Lookup × Session ε) (s : Session ε) (journal : Journal)
        (hs : Reached ops fits id source given start s) :
        Reached ops fits id source given start { s with journal } := hs.journal journal
    obtain ⟨v, hv⟩ := m.exists_settles_eval_of hjournal (fun _ => some ⟨id, none⟩)
      (fun _ t _ htest => Matcher.exists_settles_searchHierarchy _ (hresolve t) htest
        (exists_settles_stepLimit_reached hgives hs₀ t)) hsteady t
    have hbound : Target.boundTo (k := .type) (some ⟨id, none⟩) t = t := hlives.boundTo_eq
    rw [hbound] at hv
    exact ⟨.judged v, fun start => (hv start).attempt.bind (settles_pure _)⟩

/-! ### Sequences of uses -/

end TypePool

/-- What a use comes to, and the lookups that it makes. -/
structure PoolUse.Outcome where
  answer : PoolAnswer
  lookups : List Lookup

/-- The use comes to what it would come to in `s`. A name that is described is looked up once, and the
answer is that of the lookup. -/
structure PoolUse.HasOutcome (ops : LoaderOps ε) (id : PoolId)
    (given : String → Except MatchError (Option Bytes)) (s : Session ε) (use : PoolUse) (o : Outcome) :
    Prop where
  alone : ((use.run ops id).run s).1 = .ok o.answer
  describe {name : String} : use = .describe name →
    o.answer = .described (TypePool.uncached id given name)
      ∧ ∃ consulted, o.lookups = [⟨name, TypePool.uncached id given name, consulted⟩]

namespace TypePool

section Uses

variable {past past₀ : List Lookup} {s s₀ : Session ε} (hgives : source.Gives ops fits given)
  (hs₀ : Remembers fits id source given past₀ s₀)
include hgives hs₀

/-- Every use of a pool settles with the outcome that it has without memory, and its lookups are
remembered. -/
theorem exists_outcome (hs : Remembers fits id source given past s) {use : PoolUse}
    (huse : use.BoundTo id) :
    ∃ o s', (use.run ops id).run s = (.ok o.answer, s') ∧ use.HasOutcome ops id given s₀ o
      ∧ Looks ops id source given past o.lookups s s'
      ∧ Remembers fits id source given (past ++ o.lookups) s' := by
  obtain ⟨answer, hanswer⟩ := exists_settles_use hgives hs₀ huse
  have halone : ((use.run ops id).run s₀).1 = .ok answer := (hanswer _).run_eq hs₀.reached
  cases use with
  | describe name =>
    obtain ⟨consulted, s', hstep, hs'⟩ := exists_looksUp hgives hs name
    have hrun : ((PoolUse.describe name).run ops id).run s
        = (.ok (.described (uncached id given name)), s') := run_bind_ok hstep.run
    have hdescribed : answer = .described (uncached id given name) :=
      Except.ok.inj (((hanswer _).run_eq hs.reached).symm.trans (congrArg Prod.fst hrun))
    subst hdescribed
    refine ⟨⟨_, [_]⟩, s', hrun, ⟨halone, fun {name'} h => ?_⟩, hstep.looks, hs'⟩
    cases h
    exact ⟨rfl, consulted, rfl⟩
  | superTypes t =>
    obtain ⟨s', hrun, lookups, hlooks, hs'⟩ := hanswer _ s hs.reached
    exact ⟨⟨answer, lookups⟩, s', hrun, ⟨halone, nofun⟩, hlooks, hs'⟩
  | ask m t =>
    obtain ⟨s', hrun, lookups, hlooks, hs'⟩ := hanswer _ s hs.reached
    exact ⟨⟨answer, lookups⟩, s', hrun, ⟨halone, nofun⟩, hlooks, hs'⟩

/-- Uses in a row settle with their outcomes, and all of their lookups are remembered, by induction on
the uses. -/
theorem exists_outcomes (hs : Remembers fits id source given past s) {uses : List PoolUse}
    (huses : ∀ use ∈ uses, use.BoundTo id) :
    ∃ outcomes s', (uses.mapM (PoolUse.run ops id)).run s
        = (.ok (outcomes.map PoolUse.Outcome.answer), s')
      ∧ List.Forall₂ (PoolUse.HasOutcome ops id given s₀) uses outcomes
      ∧ Looks ops id source given past (outcomes.flatMap PoolUse.Outcome.lookups) s s' := by
  induction uses generalizing past s with
  | nil => exact ⟨[], s, rfl, .nil, .nil (.refl s)⟩
  | cons use rest ih =>
    obtain ⟨huse, hrest⟩ := List.forall_mem_cons.1 huses
    obtain ⟨o, s₁, hrun, ho, hlooks, hs₁⟩ := exists_outcome hgives hs₀ hs huse
    obtain ⟨outcomes, s', hrun', houtcomes, hlooks'⟩ := ih hs₁ hrest
    refine ⟨o :: outcomes, s', ?_, .cons ho houtcomes, ?_⟩
    · rw [List.mapM_cons]
      exact (run_bind_ok hrun).trans (run_bind_ok hrun')
    · rw [List.flatMap_cons]
      exact hlooks.append hlooks'

end Uses

/-- **A pool of class files** that is used again and again, from the time when it remembers nothing: every
lookup is answered as if nothing were remembered, failures included, and the source is asked just for
those names that were never answered before. What is described has its super types looked up in the same
pool. Every use comes to what it would have come to as the first one. -/
theorem exists_lookups (hgives : source.Gives ops fits given) {s : Session ε} (hfits : fits s.world)
    (hpool : s.pools[id]? = some ⟨source, []⟩) {uses : List PoolUse}
    (huses : ∀ use ∈ uses, use.BoundTo id) :
    ∃ outcomes s', (uses.mapM (PoolUse.run ops id)).run s
        = (.ok (outcomes.map PoolUse.Outcome.answer), s')
      ∧ List.Forall₂ (PoolUse.HasOutcome ops id given s) uses outcomes
      ∧ Looks ops id source given [] (outcomes.flatMap PoolUse.Outcome.lookups) s s'
      ∧ ∀ before c after, outcomes.flatMap PoolUse.Outcome.lookups = before ++ c :: after →
        c.answer = uncached id given c.name
          ∧ (c.consulted = true ↔ ∀ b ∈ before, b.name = c.name → ∃ e, b.answer = .error e)
          ∧ ∀ u, c.answer = .ok u →
            ∀ name, name ≠ rootClass → u.resolve ops name = describe ops id name := by
  have hs : Remembers fits id source given [] s := remembers_nil hfits hpool
  obtain ⟨outcomes, s', hrun, houtcomes, hlooks⟩ := exists_outcomes hgives hs hs huses
  refine ⟨outcomes, s', hrun, houtcomes, hlooks, fun before c after hsplit => ?_⟩
  rw [hsplit] at hlooks
  obtain ⟨s₁, s₂, hstep⟩ := hlooks.exists_looksUp
  refine ⟨hstep.answer_eq, hstep.consulted_iff, fun u hu name hname => ?_⟩
  have hbound : u.pool = some id := pool_of_uncached (hstep.answer_eq.symm.trans hu)
  unfold TypeDescription.resolve
  rw [if_neg hname, hbound]

end TypePool

/-! ### A loader that writes down what it is asked for -/

/-- A loader that writes down which class files it is asked for. -/
def LoaderOps.writing (answers : String → Except LoaderError (Option Bytes)) :
    LoaderOps (List String) where
  describe _ := pure .bootstrap
  parent _ := pure (.ok none)
  canLoad _ _ := pure (.ok false)
  classFile _ internal := do
    Act.modifyWorld (· ++ [internal])
    return answers internal
  release _ := pure ()
  load _ := pure none
  extent _ _ := 3

/-- A loader that writes down what it is asked answers as the table says. -/
theorem LoaderOps.gives_writing (answers : String → Except LoaderError (Option Bytes)) (l : LoaderId) :
    (TypeSource.loader l).Gives (writing answers) (fun _ => True) fun internal =>
      (answers internal).mapError fun e => .loader e.message :=
  TypeSource.gives_loader (fun _ _ _ => ⟨_, rfl, trivial, rfl⟩) fun _ _ _ _ => rfl

section Writing

variable {answers : String → Except LoaderError (Option Bytes)} {l : LoaderId} {past calls : List Lookup}
  {s s' : Session (List String)}

/-- Asking the loader for a class writes down its internal name, and nothing else happens to the world.
-/
theorem TypePool.exists_run_fetch_writing (name : String) (s : Session (List String)) :
    ∃ v, (fetch (.writing answers) (.loader l) name).run s
      = (v, { s with world := s.world ++ [internalName name] }) := by
  have hfile : ((LoaderOps.writing answers).classFile l (internalName name)).run s
      = (.ok (answers (internalName name)), { s with world := s.world ++ [internalName name] }) :=
    rfl
  unfold fetch
  rw [run_bind_ok hfile]
  rcases answers (internalName name) with e | _ | bytes
  · exact ⟨_, rfl⟩
  · exact ⟨_, rfl⟩
  · exact ⟨_, rfl⟩

/-- A lookup that asks the loader writes down one name, and any other writes down none. -/
theorem TypePool.LooksUp.world_eq {c : Lookup}
    (h : LooksUp (.writing answers) id (.loader l) given past c s s') :
    s'.world = s.world ++ if c.consulted then [internalName c.name] else [] := by
  cases hconsulted : c.consulted with
  | false => simp [h.remembered hconsulted]
  | true =>
    obtain ⟨s₁, hfetch, pools, rfl⟩ := h.asked hconsulted
    obtain ⟨v, hrun⟩ := exists_run_fetch_writing c.name s
    obtain ⟨-, rfl⟩ := Prod.mk.inj (hfetch.symm.trans hrun)
    rfl

/-- **What the loader wrote down** are the names that it was asked for. -/
theorem TypePool.Looks.world_eq
    (h : Looks (.writing answers) id (.loader l) given past calls s s') :
    s'.world = s.world ++ calls.flatMap fun c => if c.consulted then [internalName c.name] else [] := by
  induction h with
  | nil hsame =>
    obtain ⟨journal, rfl⟩ := hsame
    exact (List.append_nil _).symm
  | cons hsame hstep _ ih =>
    obtain ⟨journal, rfl⟩ := hsame
    rw [ih, hstep.world_eq, List.append_assoc, List.flatMap_cons]

end Writing

/-- The octets of a class `A` below `B`, without members. -/
def ClassFile.derived : Bytes :=
  [0xCA, 0xFE, 0xBA, 0xBE, 0, 0, 0, 0x34, 0, 5, 1, 0, 1, 0x41, 7, 0, 1, 1, 0, 1, 0x42, 7, 0, 3]
    ++ [0, 0x21, 0, 2, 0, 4, 0, 0, 0, 0, 0, 0, 0, 0]

/-- The class is there; whatever else is asked for, the loader fails. -/
def sampleFiles (internal : String) : Except LoaderError (Option Bytes) :=
  if internal = "A" then .ok (some ClassFile.derived) else .error (.exception "getResource")

/-- The class, as the pool hands it out. -/
def sampleDerived : TypeDescription :=
  { TypeDescription.ofName "A" with superClass := some "B", modifiers := 0x21, pool := some 0 }

/-- The class is described, looked at, and described again, and then the one above it. -/
def sampleUses : List PoolUse :=
  [.describe "A", .superTypes sampleDerived, .ask (.isSubTypeOf "B") sampleDerived, .describe "A",
    .describe "B"]

/-- A session with a new pool. -/
def samplePooled : Session (List String) :=
  { Session.start [] with pools := #[⟨.loader 0, []⟩] }

/-- The class is asked for once, and the one above it, which is not there, each time that it is looked
up. -/
theorem TypePool.exists_lookups_sample :
    ∃ outcomes s', (sampleUses.mapM (PoolUse.run (.writing sampleFiles) 0)).run samplePooled
        = (.ok (outcomes.map PoolUse.Outcome.answer), s')
      ∧ List.Forall₂ (PoolUse.HasOutcome (.writing sampleFiles) 0 (fun internal =>
          (sampleFiles internal).mapError fun e => .loader e.message) samplePooled) sampleUses outcomes
      ∧ s'.world = ["A", "B", "B", "B"]
      ∧ (outcomes.flatMap PoolUse.Outcome.lookups).flatMap (fun c =>
        if c.consulted then [internalName c.name] else []) = ["A", "B", "B", "B"] := by
  have huses : ∀ use ∈ sampleUses, use.BoundTo 0 := by
    simp [sampleUses, PoolUse.BoundTo, sampleDerived]
  obtain ⟨outcomes, s', hrun, houtcomes, hlooks, -⟩ :=
    exists_lookups (s := samplePooled) (LoaderOps.gives_writing sampleFiles 0) trivial rfl huses
  have hworld : ((sampleUses.mapM (PoolUse.run (.writing sampleFiles) 0)).run samplePooled).2.world
      = ["A", "B", "B", "B"] := by
    decide +kernel
  rw [hrun] at hworld
  exact ⟨outcomes, s', hrun, houtcomes, hworld, hlooks.world_eq.symm.trans hworld⟩

end AdviceWeaver

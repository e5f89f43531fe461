import AdviceWeaver.Description.Hierarchy
import AdviceWeaver.Proofs.Sequencing
import AdviceWeaver.Proofs.Session.Outcomes

/-!
# What a type sees

What a type sees is told by an answer for each name (`TypeDescription.Sees`): the description that
the name resolves to, or why it does not. Pools of descriptions and pools of class files have such
answers, whatever was noted or remembered while they were asked. As only finitely many names
resolve, there is a bound on the names that a type can meet on the way up.

## Main results

* `TypeDescription.sees_described`, `TypeDescription.sees_files` — what is seen through a pool.
* `TypeDescription.Sees.root` — the root is always seen.
-/

namespace AdviceWeaver

open Act

variable {ε : Type}

/-- What holds of all that was remembered, and of one more description, holds of all that is remembered
then. -/
theorem TypePool.forall_lookup_cons {holds : String → TypeDescription → Prop}
    {cache : List (String × TypeDescription)} {name : String} {t : TypeDescription}
    (hcache : ∀ name t, cache.lookup name = some t → holds name t) (h : holds name t) :
    ∀ name' t', ((name, t) :: cache).lookup name' = some t' → holds name' t' := by
  intro name' t' hlookup
  rw [List.lookup_cons] at hlookup
  split at hlookup
  · next heq =>
    cases hlookup
    rw [beq_iff_eq.1 heq]
    exact h
  · exact hcache name' t' hlookup

/-- Whatever stands right above a name that resolves, and resolves itself, is the root or in the
list. -/
def ResolvesIn (answer : String → Except MatchError TypeDescription) (pooled : List String) :
    Prop :=
  ∀ name u next v, answer name = .ok u → next ∈ u.superNames → answer next = .ok v →
    next = rootClass ∨ next ∈ pooled

namespace TypeDescription

/-- In good sessions every name has one answer when it is resolved from the type, and the pool of
the type bounds the number of names that resolve. -/
structure Sees (ops : LoaderOps ε) (good : Session ε → Prop) (t : TypeDescription)
    (answer : String → Except MatchError TypeDescription) : Prop where
  resolve : ∀ name, Settles good (t.resolve ops name) (.ok (answer name))
  finite : ∃ pooled, ResolvesIn answer pooled
    ∧ ∀ s, good s → pooled.length ≤ (t.pool.map (TypePool.extent ops s)).getD 0

variable {ops : LoaderOps ε} {good : Session ε → Prop} {t : TypeDescription}
  {answer : String → Except MatchError TypeDescription} {pooled : List String}

/-! ### What is seen through a pool -/

/-- The answers of a pool, but for the root, which always resolves. -/
def rooted (pool : String → Except MatchError TypeDescription) (name : String) :
    Except MatchError TypeDescription :=
  if name = rootClass then .ok (ofName rootClass) else pool name

/-- A type that is bound to a pool resolves what the pool describes, and the root in any case. -/
theorem settles_resolve_of_describe {id : PoolId}
    {pool : String → Except MatchError TypeDescription} (ht : t.pool = some id)
    (h : ∀ name, Settles good (TypePool.describe ops id name) (.ok (pool name))) (name : String) :
    Settles good (t.resolve ops name) (.ok (rooted pool name)) := by
  unfold TypeDescription.resolve rooted
  split
  · exact settles_pure _
  · simp only [ht]
    exact h name

/-- There is nothing above the root, so a bound on the names of a pool is one on those that are
seen. -/
theorem resolvesIn_rooted {pool : String → Except MatchError TypeDescription}
    (h : ∀ name u next v, pool name = .ok u → next ∈ u.superNames → pool next = .ok v →
      next ∈ pooled) : ResolvesIn (rooted pool) pooled := by
  intro name u next v hname hnext hv
  by_cases hroot : next = rootClass
  · exact .inl hroot
  · rw [rooted, if_neg hroot] at hv
    unfold rooted at hname
    split at hname
    · cases hname
      simp [superNames, ofName] at hnext
    · exact .inr (h name u next v hname hnext hv)

/-- **The root always resolves.** -/
theorem Sees.root (h : t.Sees ops good answer) {s : Session ε} (hs : good s) :
    answer rootClass = .ok (ofName rootClass) := by
  have hroot : Settles good (t.resolve ops rootClass) (.ok (.ok (ofName rootClass))) := by
    unfold TypeDescription.resolve
    rw [if_pos rfl]
    exact settles_pure _
  exact Except.ok.inj ((h.resolve rootClass).unique hs hroot)

/-- A type without a pool sees only the root. -/
theorem sees_root (ht : t.pool = none) :
    t.Sees ops good (rooted fun name => .error (.unresolvable name "no type pool")) where
  resolve name := by
    unfold TypeDescription.resolve rooted
    split
    · exact settles_pure _
    · simp only [ht]
      exact settles_pure _
  finite := ⟨[], resolvesIn_rooted nofun, fun s _ => Nat.zero_le _⟩

/-- The answers of a pool of descriptions. -/
def describedAnswer (types : String → Option TypeDescription) (name : String) :
    Except MatchError TypeDescription :=
  match types name with
  | some u => .ok u
  | none => .error (.unresolvable name "unknown")

/-- **Through a pool of descriptions** the type sees what the pool holds. -/
theorem sees_described {id : PoolId} {types : String → Option TypeDescription} {count : Nat}
    (ht : t.pool = some id) (hpooled : ∀ name u, types name = some u → name ∈ pooled)
    (hcount : pooled.length ≤ count) :
    t.Sees ops
      (fun s => ∃ pool, s.pools[id]? = some pool ∧ pool.source = .described types count)
      (rooted (describedAnswer types)) where
  resolve := by
    refine settles_resolve_of_describe ht fun name => ?_
    unfold TypePool.describe
    refine settles_get_bind fun s hs => ?_
    obtain ⟨⟨source, cache⟩, hpool, rfl⟩ := hs
    simp only [hpool]
    refine (settles_note (fun s journal hs => hs) _).bind ?_ s ⟨_, hpool, rfl⟩
    unfold describedAnswer
    cases types name <;> exact settles_pure _
  finite := by
    refine ⟨pooled, resolvesIn_rooted fun name u next v _ _ hv => ?_, fun s hs => ?_⟩
    · unfold describedAnswer at hv
      split at hv
      · next w htypes => exact hpooled _ w htypes
      · cases hv
    · obtain ⟨⟨source, cache⟩, hpool, rfl⟩ := hs
      simpa [ht, TypePool.extent, hpool] using hcount

/-- The answers of a pool of class files, which binds its descriptions to itself. -/
def fileAnswer (id : PoolId) (answers : String → SourceAnswer) (name : String) :
    Except MatchError TypeDescription :=
  match answers (internalName name) with
  | .found bytes =>
    match TypeDescription.read bytes with
    | .ok u => .ok { u with pool := some id }
    | .error e => .error (.format e)
  | .missing => .error (.unresolvable name "class file not found")
  | .fails message => .error (.loader message)

/-- An answer from a class file was found and read, and is bound to the pool. -/
theorem exists_of_fileAnswer_eq_ok {id : PoolId} {answers : String → SourceAnswer} {name : String}
    {u : TypeDescription} (h : fileAnswer id answers name = .ok u) :
    ∃ bytes w, answers (internalName name) = .found bytes ∧ TypeDescription.read bytes = .ok w
      ∧ u = { w with pool := some id } := by
  unfold fileAnswer at h
  split at h
  · next bytes hfound =>
    split at h
    · next w hread =>
      cases h
      exact ⟨bytes, w, hfound, hread, rfl⟩
    · cases h
  · cases h
  · cases h

/-- The pool has these class files and remembers nothing but what it would describe again. -/
def Files (id : PoolId) (answers : String → SourceAnswer) (count : Nat) (s : Session ε) : Prop :=
  ∃ pool, s.pools[id]? = some pool ∧ pool.source = .files answers count
    ∧ ∀ name u, pool.cache.lookup name = some u → ∃ bytes,
      answers (internalName name) = .found bytes ∧ TypeDescription.read bytes = .ok u

section Files

variable {id : PoolId} {answers : String → SourceAnswer} {count : Nat} {name : String}

/-- A pool of class files is asked for the internal name, and answers with the bytes, with none or with
a failure. -/
theorem settles_fetch_files :
    Settles (Files id answers count) (TypePool.fetch ops (.files answers count) name)
      (.ok (match answers (internalName name) with
        | .found bytes => .ok bytes
        | .missing => .error (.unresolvable name "class file not found")
        | .fails message => .error (.loader message))) := by
  unfold TypePool.fetch
  refine (settles_note (fun s journal hs => hs) _).bind ?_
  cases answers (internalName name) <;> exact settles_pure _

/-- What is described may be remembered. -/
theorem settles_remember_files {u : TypeDescription} {bytes : Bytes}
    (hfound : answers (internalName name) = .found bytes)
    (hread : TypeDescription.read bytes = .ok u) :
    Settles (Files (ε := ε) id answers count) (TypePool.remember id name u) (.ok ()) := by
  refine settles_modify fun s ⟨pool, hpool, hsource, hcache⟩ => ?_
  refine ⟨{ pool with cache := (name, u) :: pool.cache }, ?_, hsource,
    TypePool.forall_lookup_cons hcache ⟨bytes, hfound, hread⟩⟩
  rw [Array.getElem?_modify, if_pos rfl, hpool]
  rfl

/-- Whether a class file was remembered or not, it is described in the same way. -/
theorem settles_describe_files (name : String) :
    Settles (Files id answers count) (TypePool.describe ops id name)
      (.ok (fileAnswer id answers name)) := by
  refine settles_get_bind fun s hs => ?_
  obtain ⟨⟨source, cache⟩, hpool, hsource, hcache⟩ := hs
  obtain rfl : source = .files answers count := hsource
  have hs : Files id answers count s := ⟨_, hpool, rfl, hcache⟩
  simp only [hpool]
  cases hlookup : cache.lookup name with
  | some u =>
    obtain ⟨bytes, hfound, hread⟩ := hcache name u hlookup
    simp only [fileAnswer, hfound, hread]
    exact ⟨s, rfl, hs⟩
  | none =>
    refine settles_fetch_files.bind ?_ s hs
    unfold fileAnswer
    cases hanswer : answers (internalName name) with
    | missing => exact settles_pure _
    | fails message => exact settles_pure _
    | found bytes =>
      cases hread : TypeDescription.read bytes with
      | error e =>
        simp only [hread]
        exact settles_pure _
      | ok u =>
        simp only [hread]
        exact (settles_remember_files hanswer hread).bind (settles_pure _)

/-- The names above a type that was read are spelled as binary names are. -/
theorem exists_of_mem_superNames {bytes : Bytes} {u : TypeDescription} {next : String}
    (hread : TypeDescription.read bytes = .ok u) (hnext : next ∈ u.superNames) :
    ∃ internal, next = binaryName internal := by
  unfold TypeDescription.read ofClassFile at hread
  simp only [except_bind_eq_ok, except_pure_eq_ok] at hread
  obtain ⟨c, -, className, -, methods, -, superClass, -, interfaces, -, annotations, -, rfl⟩ :=
    hread
  obtain hsuper | hinterface := List.mem_append.1 hnext
  · obtain ⟨internal, -, rfl⟩ := Option.map_eq_some_iff.1 (Option.mem_toList.1 hsuper)
    exact ⟨internal, rfl⟩
  · obtain ⟨internal, -, rfl⟩ := List.mem_map.1 hinterface
    exact ⟨internal, rfl⟩

/-- A binary name is the same after going through the internal one. -/
theorem binaryName_internalName_binaryName (internal : String) :
    binaryName (internalName (binaryName internal)) = binaryName internal := by
  refine String.toList_inj.1 ?_
  simp only [binaryName, internalName, Text.replaceChar, String.toList_map, List.map_map]
  refine List.map_congr_left fun c _ => ?_
  simp only [Function.comp_apply]
  grind

/-- **Through a pool of class files** the type sees the classes in them, each bound to the pool. -/
theorem sees_files {internals : List String} (ht : t.pool = some id)
    (hinternals : ∀ internal bytes, answers internal = .found bytes → internal ∈ internals)
    (hcount : internals.length ≤ count) :
    t.Sees ops (Files id answers count) (rooted (fileAnswer id answers)) where
  resolve := settles_resolve_of_describe ht settles_describe_files
  finite := by
    refine ⟨internals.map binaryName,
      resolvesIn_rooted fun name u next v hname hnext hv => ?_, fun s hs => ?_⟩
    · obtain ⟨_, w, -, hread, rfl⟩ := exists_of_fileAnswer_eq_ok hname
      obtain ⟨internal, rfl⟩ := exists_of_mem_superNames hread hnext
      obtain ⟨bytes, _, hfound, -⟩ := exists_of_fileAnswer_eq_ok hv
      rw [← binaryName_internalName_binaryName]
      exact List.mem_map_of_mem (hinternals _ bytes hfound)
    · obtain ⟨pool, hpool, hsource, -⟩ := hs
      simpa [ht, TypePool.extent, hpool, hsource] using hcount

end Files

/-! ### A hierarchy with a cycle -/

/-- A class whose super class implements the interface that it implements itself. -/
def leaf : TypeDescription :=
  { ofName "Leaf" with superClass := some "Base", interfaces := ["Face"], pool := some 0 }

/-- The types around `leaf`; the interface leads back to it. -/
def leafTypes (name : String) : Option TypeDescription :=
  [leaf, { ofName "Base" with interfaces := ["Face"] },
    { ofName "Face" with interfaces := ["Leaf"] }].find? (·.name = name)

/-- A session with a pool of these types. -/
def leafSession (world : ε) : Session ε :=
  { Session.start world with pools := #[⟨.described leafTypes 3, []⟩] }

/-- Every type around the leaf is one of three. -/
theorem mem_of_leafTypes {name : String} {u : TypeDescription} (h : leafTypes name = some u) :
    name ∈ ["Leaf", "Base", "Face"] := by
  have hname : u.name = name := by simpa using List.find?_some h
  have hmem := List.mem_map_of_mem (f := TypeDescription.name) (List.mem_of_find?_eq_some h)
  rw [hname] at hmem
  exact hmem

/-- A type around the leaf that resolves has the name that it was asked for. -/
theorem name_of_leafTypes {name : String} {u : TypeDescription}
    (h : rooted (describedAnswer leafTypes) name = .ok u) : u.name = name := by
  unfold rooted describedAnswer at h
  split at h
  · next hroot =>
    cases h
    exact hroot.symm
  · split at h
    · next w hw =>
      cases h
      simpa using List.find?_some hw
    · cases h

/-- Whoever is bound to the pool of the leaf sees the types around it. -/
theorem sees_leafTypes (ops : LoaderOps ε) (ht : t.pool = some 0) :
    t.Sees ops (fun s => ∃ pool, s.pools[0]? = some pool ∧ pool.source = .described leafTypes 3)
      (rooted (describedAnswer leafTypes)) :=
  sees_described ht (fun _ _ => mem_of_leafTypes) (Nat.le_refl 3)

end TypeDescription

end AdviceWeaver

import AdviceWeaver.Proofs.Weaving.HookedMethods

/-!
# The methods of a plan

The entries of a plan are carried out one after the other, and each gives at most one splice
(`MethodInfo.Splices`). The entries come in the order of the methods, so that the splices come in the
order of the octets, and walking over methods and entries side by side shows what becomes of every
method (`MethodInfo.Woven`).

## Main results

* `PoolExtension.spliceMethod_spec` — what carrying out one entry gives.
* `Reader.takes_plannedMethods` — the methods with all splices are read back, each woven.
-/

namespace AdviceWeaver

/-- The splice for a method that is to receive hooks: its code attribute is replaced by the one with
hooks, if it has one and any hook asks for a call. -/
def MethodInfo.Splices (bytes : Bytes) (x : PoolExtension) (m : MethodInfo) (hooks : List Hook)
    (splice? : Option Splice) : Prop :=
  ((m.code? = none ∨ hooks.any Hook.isActive = false) ∧ splice? = none)
    ∨ ∃ a body refs content, m.code? = some (a, body) ∧ hooks.any Hook.isActive = true
        ∧ refs.Meets x.Knows hooks ∧ body.insertHooks bytes refs = .ok content
        ∧ splice? = some ⟨a.span, encodeAttribute a.name content⟩

/-- The 32 bits for the length of a code attribute can tell that of the one which a splice puts in: its
content has less than `2 ^ 32` octets, behind 6 octets for name and length. -/
def Splice.TellsLength (s : Splice) : Prop :=
  s.octets.length < 4294967296 + 6

/-- The method `m'` is `m` with `hooks` carried out: their calls are put into its body, if it has one
and any hook asks for a call, and nothing is changed otherwise. -/
structure MethodInfo.Woven (pool : ConstantPool) (hooks : List Hook) (m m' : MethodInfo) : Prop where
  same : m.code? = none ∨ hooks.any Hook.isActive = false → m.Same m'
  hooked : m.code? ≠ none → hooks.any Hook.isActive = true →
    ∃ refs, refs.Meets pool.Calls hooks ∧ m.Hooked refs m'

/-- The method `m'` is `m` with `hooks` carried out, and what became of its body is told with its stack
map frames. -/
structure MethodInfo.Recoded (pool : ConstantPool) (hooks : List Hook) (m m' : MethodInfo) : Prop
    extends MethodInfo.Woven pool hooks m m' where
  body {a : Attribute} {body : Code} : m.code? = some (a, body) →
    hooks.any Hook.isActive = true →
    ∃ a' body' refs pairs, m'.code? = some (a', body') ∧ refs.Meets pool.Calls hooks
      ∧ Reframed refs pairs body body'

namespace MethodInfo

variable {bytes : Bytes} {x y : PoolExtension} {m : MethodInfo} {hooks : List Hook}
  {splice? : Option Splice}

/-- A splice stays right when more constants are appended. -/
theorem Splices.mono (h : x.appended <:+ y.appended) (hm : m.Splices bytes x hooks splice?) :
    m.Splices bytes y hooks splice? := by
  obtain hnone | ⟨a, body, refs, content, hcode, hactive, hrefs, hcontent, rfl⟩ := hm
  · exact .inl hnone
  · exact .inr ⟨a, body, refs, content, hcode, hactive,
      hrefs.imp fun _ _ _ => PoolExtension.Knows.mono h, hcontent, rfl⟩

end MethodInfo

/-! ### Single entries -/

/-- **Carrying out an entry** of a plan gives the splice for its method. -/
theorem PoolExtension.spliceMethod_spec {base : Nat} {x y : PoolExtension} {bytes : Bytes}
    {methods : List MethodInfo} {entry : Nat × List Hook} {splice? : Option Splice}
    (hx : Sound base x) (h : spliceMethod bytes methods.toArray entry x = .ok (splice?, y)) :
    Sound base y ∧ x.appended <:+ y.appended
      ∧ ∃ m, methods[entry.1]? = some m ∧ m.Splices bytes y entry.2 splice? := by
  obtain ⟨index, hooks⟩ := entry
  simp only [spliceMethod, List.getElem?_toArray] at h
  cases hm : methods[index]? with
  | none =>
    rw [hm] at h
    cases h
  | some m =>
    rw [hm] at h
    cases hcode : m.code? with
    | none =>
      simp only [hcode] at h
      obtain ⟨rfl, rfl⟩ := pure_eq_ok_iff.1 h
      exact ⟨hx, List.suffix_rfl, m, rfl, .inl ⟨.inl hcode, rfl⟩⟩
    | some found =>
      obtain ⟨a, body⟩ := found
      simp only [hcode] at h
      obtain ⟨refs, x₁, hrefs, h⟩ := bind_eq_ok_iff.1 h
      obtain ⟨hx₁, hle, hmeets⟩ := hookRefs_spec hx hrefs
      have hempty := hmeets.isEmpty_eq
      split at h
      · next hnone =>
        obtain ⟨rfl, rfl⟩ := pure_eq_ok_iff.1 h
        rw [hnone, eq_comm, Bool.not_eq_true'] at hempty
        exact ⟨hx₁, hle, m, rfl, .inl ⟨.inr hempty, rfl⟩⟩
      · next hsome =>
        obtain ⟨content, x₂, hcontent, h⟩ := bind_eq_ok_iff.1 h
        obtain ⟨rfl, rfl⟩ := pure_eq_ok_iff.1 h
        obtain ⟨hinsert, rfl⟩ := lift_eq_ok_iff.1 hcontent
        rw [Bool.not_eq_true, hempty, Bool.not_eq_false'] at hsome
        exact ⟨hx₁, hle, m, rfl, .inr ⟨a, body, refs, content, hcode, hsome, hmeets, hinsert, rfl⟩⟩

/-- **The entries of a plan** give the splices for their methods. -/
theorem PoolExtension.mapM_spliceMethod_spec {base : Nat} {x y : PoolExtension} {bytes : Bytes}
    {methods : List MethodInfo} {entries : List (Nat × List Hook)} {results : List (Option Splice)}
    (hx : Sound base x)
    (h : entries.mapM (spliceMethod bytes methods.toArray) x = .ok (results, y)) :
    Sound base y
      ∧ List.Forall₂ (fun entry splice? => ∃ m, methods[entry.1]? = some m
          ∧ m.Splices bytes y entry.2 splice?) entries results := by
  obtain ⟨hy, -, hresults⟩ := mapM_keeps (Sound base) (fun x y => x.appended <:+ y.appended)
    (fun entry splice? y => ∃ m, methods[entry.1]? = some m ∧ m.Splices bytes y entry.2 splice?)
    (fun _ => List.suffix_rfl) (fun _ _ _ => List.IsSuffix.trans)
    (fun _ _ _ _ hle ⟨m, hm, hsplices⟩ => ⟨m, hm, hsplices.mono hle⟩)
    (fun _ _ _ _ => spliceMethod_spec) hx h
  exact ⟨hy, hresults⟩

/-! ### Walking over the methods -/

/-- The first method of those from position `index` on takes the entry for it, if there is one; the
entries that are left are for the methods behind it. -/
theorem exists_entry {P : Nat × List Hook → Option Splice → Prop} {index : Nat}
    {entries : List (Nat × List Hook)} {results : List (Option Splice)}
    (h : List.Forall₂ P entries results)
    (hascending : entries.Pairwise fun entry later => entry.1 < later.1)
    (hge : ∀ entry ∈ entries, index ≤ entry.1) :
    ∃ hooks splice? entries' results',
      (entries.lookup index).getD [] = hooks ∧ results.filterMap id = splice?.toList ++ results'.filterMap id
        ∧ (P (index, hooks) splice? ∨ hooks = [] ∧ splice? = none)
        ∧ (∀ later, index < later → entries.lookup later = entries'.lookup later)
        ∧ List.Forall₂ P entries' results'
        ∧ (entries'.Pairwise fun entry later => entry.1 < later.1)
        ∧ ∀ entry ∈ entries', index + 1 ≤ entry.1 := by
  by_cases hfirst : ∃ hooks rest, entries = (index, hooks) :: rest
  · obtain ⟨hooks, rest, rfl⟩ := hfirst
    obtain ⟨splice?, results', hP, hrest, rfl⟩ := List.forall₂_cons_left_iff.1 h
    obtain ⟨hlt, hascending'⟩ := List.pairwise_cons.1 hascending
    refine ⟨hooks, splice?, rest, results', by simp, ?_, .inl hP, fun later hlater => ?_, hrest,
      hascending', hlt⟩
    · cases splice? <;> rfl
    · have hne : (later == index) = false := by simpa using Nat.ne_of_gt hlater
      simp [List.lookup_cons, hne]
  · have hgt : ∀ entry ∈ entries, index + 1 ≤ entry.1 := by
      cases entries with
      | nil => exact nofun
      | cons first rest =>
        obtain ⟨method, hooks⟩ := first
        have hne : method ≠ index := fun heq => hfirst ⟨hooks, rest, by rw [heq]⟩
        have hmethod := hge _ List.mem_cons_self
        intro entry hentry
        obtain rfl | hentry := List.mem_cons.1 hentry
        · omega
        · have hlt := (List.pairwise_cons.1 hascending).1 entry hentry
          omega
    have hnone : entries.lookup index = none := by
      refine List.lookup_eq_none_iff.2 fun entry hentry => ?_
      simpa using Nat.ne_of_lt (hgt entry hentry)
    exact ⟨[], none, entries, results, by rw [hnone]; rfl, rfl, .inr ⟨rfl, rfl⟩, fun _ _ => rfl, h,
      hascending, hgt⟩

namespace Reader

variable {pool pool' : ConstantPool} {bytes : Bytes} {x : PoolExtension} {depth : Nat}
  {offset : Nat} {octets : Bytes} {all methods : List MethodInfo}

/-- A method is read back with its splice put in, if 32 bits can tell how long that is. -/
theorem takes_plannedMethod
    (hpool : ∀ {index text}, pool.getText index = .ok text → pool'.getText index = .ok text)
    (hcalls : ∀ hookClass name index, x.Knows hookClass name index →
      pool'.Calls hookClass name index)
    {m : MethodInfo} {hooks : List Hook} {splice? : Option Splice}
    (h : (method pool depth).Takes offset octets m) (hat : bytes.HasAt offset octets)
    (hsplices : m.Splices bytes x hooks splice?) :
    ∃ octets', Spliced offset octets octets' splice?.toList
      ∧ ((∀ s ∈ splice?.toList, s.TellsLength) → ∀ n offset', octets'.length ≤ n →
        ∃ m', (method pool' n).Takes offset' octets' m' ∧ m.Recoded pool' hooks m') := by
  obtain ⟨hnone, rfl⟩ | ⟨a, body, refs, content, hcode, hactive, hrefs, hcontent, rfl⟩ := hsplices
  · refine ⟨octets, .copied _ _, fun _ n offset' hn => ?_⟩
    obtain ⟨m', hm', hsame⟩ := takes_sameMethod hpool h hn offset'
    refine ⟨m', hm', ⟨fun _ => hsame, fun hcode hactive => ?_⟩, fun hcode hactive => ?_⟩ <;>
      simp [hcode, hactive] at hnone
  · obtain ⟨octets', hspliced, hread⟩ := takes_hookedMethod hpool h hat hcode hcontent
    refine ⟨octets', hspliced, fun htells n offset' hn => ?_⟩
    have hsmall : content.length < 4294967296 := by
      have htells := htells _ (List.mem_singleton_self _)
      simp only [Splice.TellsLength, encodeAttribute, List.length_append, Bytes.length_ofUInt16,
        Bytes.length_ofUInt32] at htells
      omega
    obtain ⟨m', hm', hhooked, a', body', pairs, hcode', hreframed⟩ := hread hsmall n offset' hn
    refine ⟨m', hm', ⟨fun hnone => ?_, fun _ _ => ⟨refs, hrefs.imp hcalls, hhooked⟩⟩,
      fun hcode₁ _ => ⟨a', body', refs, pairs, hcode', hrefs.imp hcalls, ?_⟩⟩
    · simp [hcode, hactive] at hnone
    · rw [hcode] at hcode₁
      cases hcode₁
      exact hreframed

/-- **The methods of a class** are read back with all splices put in, if 32 bits can tell how long each
is, and every method is what its hooks make of it. -/
theorem takes_plannedMethods
    (hpool : ∀ {index text}, pool.getText index = .ok text → pool'.getText index = .ok text)
    (hcalls : ∀ hookClass name index, x.Knows hookClass name index →
      pool'.Calls hookClass name index)
    (index : Nat) {entries : List (Nat × List Hook)} {results : List (Option Splice)}
    (h : (method pool depth).TakesEach offset octets methods)
    (hat : bytes.HasAt offset octets) (hall : ∀ k, all[index + k]? = methods[k]?)
    (hentries : List.Forall₂ (fun entry splice? => ∃ m, all[entry.1]? = some m
      ∧ m.Splices bytes x entry.2 splice?) entries results)
    (hascending : entries.Pairwise fun entry later => entry.1 < later.1)
    (hge : ∀ entry ∈ entries, index ≤ entry.1) :
    ∃ octets', Spliced offset octets octets' (results.filterMap id)
      ∧ ((∀ s ∈ results.filterMap id, s.TellsLength) → ∀ n offset', octets'.length ≤ n →
        ∃ methods', (method pool' n).TakesEach offset' octets' methods'
          ∧ methods'.length = methods.length
          ∧ ∀ (k : Nat) (m m' : MethodInfo), methods[k]? = some m → methods'[k]? = some m' →
            m.Recoded pool' ((entries.lookup (index + k)).getD []) m') := by
  -- The entries that are left name methods from `index` on, so that each belongs to what is left.
  induction methods generalizing index offset octets entries results with
  | nil =>
    obtain rfl : entries = [] := by
      refine List.eq_nil_iff_forall_not_mem.2 fun entry hentry => ?_
      obtain ⟨splice?, -, m, hm, -⟩ := exists_of_forall₂_left hentries hentry
      have hnone := hall (entry.1 - index)
      rw [Nat.add_sub_cancel' (hge entry hentry), hm] at hnone
      cases hnone
    cases hentries
    exact ⟨octets, .copied _ _, fun _ n offset' _ => ⟨[], h, rfl, nofun⟩⟩
  | cons m rest ih =>
    obtain ⟨front, back, rfl, hfront, hback⟩ := h
    obtain ⟨hooks, splice?, entries', results', hhooks, hresults, hfirst, hlookup, hentries',
      hascending', hge'⟩ := exists_entry hentries hascending hge
    have hm : m.Splices bytes x hooks splice? := by
      obtain ⟨m', hm', hsplices⟩ | ⟨rfl, rfl⟩ := hfirst
      · have heq := hall 0
        rw [Nat.add_zero, hm'] at heq
        cases heq
        exact hsplices
      · exact .inl ⟨.inr rfl, rfl⟩
    obtain ⟨front', hspliced, hread⟩ := takes_plannedMethod hpool hcalls hfront hat.left hm
    have hall' (k : Nat) : all[index + 1 + k]? = rest[k]? := by
      rw [Nat.add_assoc, Nat.add_comm 1, hall, List.getElem?_cons_succ]
    obtain ⟨back', hspliced', hread'⟩ := ih (index + 1) hback hat.right hall' hentries'
      hascending' hge'
    refine ⟨front' ++ back', hresults ▸ hspliced.append hspliced', fun htells n offset' hn => ?_⟩
    rw [hresults, List.forall_mem_append] at htells
    rw [List.length_append] at hn
    obtain ⟨m', hm', hwoven⟩ := hread htells.1 n offset' (by omega)
    obtain ⟨rest', hrest', hlength, hwoven'⟩ :=
      hread' htells.2 n (offset' + front'.length) (by omega)
    refine ⟨m' :: rest', ⟨front', back', rfl, hm', hrest'⟩, by simp [hlength], ?_⟩
    rintro (_ | k) old new hold hnew
    · cases hold
      cases hnew
      rwa [Nat.add_zero, hhooks]
    · have hlater := hwoven' k old new hold hnew
      rwa [← hlookup _ (by omega), Nat.add_assoc, Nat.add_comm 1] at hlater

end Reader

end AdviceWeaver

import AdviceWeaver.Matching.Evaluation
import AdviceWeaver.Proofs.Description.SuperTypes
import AdviceWeaver.Proofs.Session.Agreement

/-!
# Searching a hierarchy

Looking for a super type tests the type itself and then the types of the names above it, in the
order of their enumeration, each of which is resolved just before it is tested (`Matcher.scan`). So
it visits what collecting the super types visits, but stops at the first hit or failure, and what
it would have met behind that is not even asked for.

## Main results

* `Matcher.agree_searchHierarchy_scan` — a search is a scan of the enumeration.
* `Matcher.hasSuperType_scans` — the answer of a search, and how it compares with the super types.
-/

namespace AdviceWeaver

open Act Frontier

variable {ε : Type}

/-- The type itself, or one that some name resolves to. -/
def TypeDescription.Met (answer : String → Except MatchError TypeDescription)
    (t u : TypeDescription) : Prop :=
  u = t ∨ ∃ name, answer name = .ok u

namespace Matcher

/-! ### The first decision -/

/-- The answer of the first item that decides: a type on which the answer is yes or a failure, or
the failure in place of a type. -/
def firstDecided (judge : TypeDescription → Answer) :
    List (Except MatchError TypeDescription) → Answer
  | [] => .ok false
  | .error e :: _ => .error e
  | .ok u :: rest =>
    match judge u with
    | .ok false => firstDecided judge rest
    | decided => decided

section FirstDecided

variable {judge : TypeDescription → Answer} {items : List (Except MatchError TypeDescription)}

/-- A type decides unless its answer is no. -/
theorem firstDecided_ok_cons (u : TypeDescription)
    (items : List (Except MatchError TypeDescription)) :
    firstDecided judge (.ok u :: items)
      = match judge u with
        | .ok false => firstDecided judge items
        | decided => decided :=
  rfl

/-- Items in two parts decide like the first part, or like the second if the first does not. -/
theorem firstDecided_append (items more : List (Except MatchError TypeDescription)) :
    firstDecided judge (items ++ more)
      = match firstDecided judge items with
        | .ok false => firstDecided judge more
        | decided => decided := by
  induction items with
  | nil => rfl
  | cons x rest ih =>
    cases x with
    | error e => rfl
    | ok u =>
      rw [List.cons_append, firstDecided_ok_cons, firstDecided_ok_cons]
      rcases judge u with e | _ | _
      · rfl
      · exact ih
      · rfl

/-- An item in front decides, or leaves it to the others. -/
theorem firstDecided_cons (x : Except MatchError TypeDescription)
    (items : List (Except MatchError TypeDescription)) :
    firstDecided judge (x :: items)
      = match firstDecided judge [x] with
        | .ok false => firstDecided judge items
        | decided => decided :=
  firstDecided_append [x] items

/-- What comes behind the item that decides makes no difference. -/
theorem firstDecided_append_of_ne (h : firstDecided judge items ≠ .ok false)
    (more : List (Except MatchError TypeDescription)) :
    firstDecided judge (items ++ more) = firstDecided judge items := by
  rw [firstDecided_append]
  split
  · next hfalse => exact absurd hfalse h
  · rfl

/-- A failure among the items keeps the answer from being no. -/
theorem firstDecided_ne_of_mem {e : MatchError} (h : .error e ∈ items) :
    firstDecided judge items ≠ .ok false := by
  induction items with
  | nil => cases h
  | cons x rest ih =>
    cases x with
    | error e' => nofun
    | ok u =>
      have hrest : .error e ∈ rest := by simpa using h
      rw [firstDecided_ok_cons]
      rcases judge u with e | _ | _
      · nofun
      · exact ih hrest
      · nofun

/-- Without failures the answer is whether it is yes for some type. -/
theorem exists_firstDecided_map_ok {us : List TypeDescription}
    (hus : ∀ u ∈ us, ∃ hit, judge u = .ok hit) :
    ∃ hit, firstDecided judge (us.map .ok) = .ok hit
      ∧ (hit = true ↔ ∃ u ∈ us, judge u = .ok true) := by
  induction us with
  | nil => exact ⟨false, rfl, by simp⟩
  | cons u rest ih =>
    obtain ⟨⟨hit, hu⟩, hrest⟩ := List.forall_mem_cons.1 hus
    rw [List.map_cons, firstDecided_ok_cons, hu]
    cases hit with
    | true => exact ⟨true, rfl, by simp [hu]⟩
    | false =>
      obtain ⟨hit, heq, hiff⟩ := ih hrest
      exact ⟨hit, heq, hiff.trans (by simp [hu])⟩

end FirstDecided

/-! ### Scanning -/

/-- The first item is asked, and the others only if its answer is no. -/
theorem anyOf_cons {α : Type} (test : α → Act ε Answer) (a : α) (items : List α) :
    anyOf test (a :: items) = do
      match ← test a with
      | .ok false => anyOf test items
      | decided => return decided :=
  rfl

/-- Whether some item passes a test is asked of the rest only if it is left open. -/
theorem anyOf_append {α : Type} (test : α → Act ε Answer) (items more : List α) :
    anyOf test (items ++ more) = do
      match ← anyOf test items with
      | .ok false => anyOf test more
      | decided => return decided := by
  induction items with
  | nil => exact (pure_bind _ _).symm
  | cons a rest ih =>
    rw [List.cons_append, anyOf_cons, anyOf_cons, bind_assoc]
    refine congrArg (test a >>= ·) (funext fun r => ?_)
    rcases r with e | _ | _
    · exact (pure_bind _ _).symm
    · exact ih
    · exact (pure_bind _ _).symm

/-- Once an item decides, the items behind it make no difference. -/
theorem agree_anyOf_append {α : Type} {good : Session ε → Prop} {test : α → Act ε Answer}
    {items : List α} {decided : Answer} (h : Settles good (anyOf test items) (.ok decided))
    (hdecided : decided ≠ .ok false) (more : List α) :
    Agree good (anyOf test (items ++ more)) (anyOf test items) := by
  rw [anyOf_append]
  intro s hs
  obtain ⟨s', hrun, hs'⟩ := h s hs
  rw [run_bind_ok hrun, hrun]
  rcases decided with e | _ | _
  · exact ⟨rfl, hs'⟩
  · exact absurd rfl hdecided
  · exact ⟨rfl, hs'⟩

/-- Resolves a name and tests the type. -/
def resolveAndTest (ops : LoaderOps ε) (t : TypeDescription)
    (test : TypeDescription → Act ε Answer) (name : String) : Act ε Answer := do
  match ← t.resolve ops name with
  | .error e => return .error e
  | .ok u => test u

/-- Tests the type itself and then those of the names, each of which is resolved just before, until
one decides. -/
def scan (ops : LoaderOps ε) (t : TypeDescription) (test : TypeDescription → Act ε Answer)
    (names : List String) : Act ε Answer := do
  match ← test t with
  | .ok false => anyOf (resolveAndTest ops t test) names
  | decided => return decided

section Search

variable {ops : LoaderOps ε} {good : Session ε → Prop} {t : TypeDescription}
  {answer : String → Except MatchError TypeDescription} {names : List String}
  {test : TypeDescription → Act ε Answer} {judge : TypeDescription → Answer}

section Scan

variable (h : t.Sees ops good answer)
  (htest : ∀ u, t.Met answer u → Settles good (test u) (.ok (judge u)))
include h htest

/-- A name that is resolved and tested settles on the answer for what it resolves to. -/
theorem settles_resolveAndTest (name : String) :
    Settles good (resolveAndTest ops t test name) (.ok (firstDecided judge [answer name])) := by
  refine (h.resolve name).bind ?_
  cases hname : answer name with
  | error e => exact settles_pure _
  | ok u =>
    have hlone : firstDecided judge [.ok u] = judge u := by
      rw [firstDecided_ok_cons]
      split
      · next hfalse => exact hfalse.symm
      · rfl
    rw [hlone]
    exact htest u (.inr ⟨name, hname⟩)

/-- Names in a row settle on the first of them that decides, by induction on the names. -/
theorem settles_anyOf (names : List String) :
    Settles good (anyOf (resolveAndTest ops t test) names)
      (.ok (firstDecided judge (names.map answer))) := by
  induction names with
  | nil => exact settles_pure _
  | cons name rest ih =>
    rw [List.map_cons, firstDecided_cons]
    refine (settles_resolveAndTest h htest name).bind ?_
    rcases firstDecided judge [answer name] with e | _ | _
    · exact settles_pure _
    · exact ih
    · exact settles_pure _

/-- **The search above a type** resolves and tests the names that a frontier visits. -/
theorem agree_searchAbove_visit (n : Nat) (f : Frontier) :
    Agree good (searchAbove ops t test n f)
      (anyOf (resolveAndTest ops t test) (visit (namesAbove answer) n f)) := by
  induction n generalizing f with
  | zero => exact agree_pure _
  | succ n ih =>
    unfold searchAbove
    cases hqueue : f.queue with
    | nil =>
      rw [visit_nil hqueue]
      exact agree_pure _
    | cons name rest =>
      rw [visit_cons hqueue, anyOf_cons, resolveAndTest, bind_assoc]
      refine (h.resolve name).agree_bind ?_
      cases hname : answer name with
      | error e => exact agree_pure _
      | ok u =>
        rw [namesAbove_eq hname]
        refine (htest u (.inr ⟨name, hname⟩)).agree_bind ?_
        rcases judge u with e | _ | _
        · exact agree_pure _
        · exact ih _
        · exact agree_pure _

/-- The names beyond the bound on the steps stand behind one that does not resolve. -/
theorem agree_anyOf_take {pooled : List String} (hpooled : ResolvesIn answer pooled)
    (hnames : Enumerates (namesAbove answer) t.superNames names) {n : Nat}
    (hn : t.superNames.length + pooled.length + 2 ≤ n) :
    Agree good (anyOf (resolveAndTest ops t test) (names.take n))
      (anyOf (resolveAndTest ops t test) names) := by
  have hsettles := settles_anyOf h htest (names.take n)
  obtain hwhole | ⟨bad, hbad, e, hfails⟩ := TypeDescription.take_eq_or_fails hpooled hnames hn
  · rw [hwhole] at hsettles ⊢
    exact hsettles.agree
  · have hfailed : .error e ∈ (names.take n).map answer := List.mem_map.2 ⟨bad, hbad, hfails⟩
    have hmore := agree_anyOf_append hsettles (firstDecided_ne_of_mem hfailed) (names.drop n)
    rw [List.take_append_drop] at hmore
    exact hmore.symm

/-- **A search** is a scan of the enumeration; the bound on the steps is not felt. -/
theorem agree_searchHierarchy_scan
    (hnames : Enumerates (namesAbove answer) t.superNames names) :
    Agree good (searchHierarchy ops t test) (scan ops t test names) := by
  obtain ⟨pooled, hpooled, hcount⟩ := h.finite
  refine (htest t (.inl rfl)).agree_bind ?_
  rcases judge t with e | _ | _
  · exact agree_pure _
  -- The bound on the steps is taken from the session, so from here on a single run is followed.
  · intro s hs
    obtain ⟨n, hn, hrun⟩ := TypeDescription.exists_limit (hcount s hs)
    have hwalk : visit (namesAbove answer) n (.above t) = names.take n := hnames.walk_eq_take n
    have habove := agree_searchAbove_visit h htest n (.above t)
    rw [hwalk] at habove
    show (t.stepLimit ops >>= fun n => searchAbove ops t test n (.above t)).run s = _ ∧ good _
    rw [run_bind_ok hrun]
    exact habove.trans (agree_anyOf_take h htest hpooled hnames hn) s hs
  · exact agree_pure _

/-- The scan settles on the first of the type and its super types that decides. -/
theorem settles_scan (names : List String) :
    Settles good (scan ops t test names)
      (.ok (firstDecided judge (.ok t :: names.map answer))) := by
  refine (htest t (.inl rfl)).bind ?_
  rw [firstDecided_ok_cons]
  rcases judge t with e | _ | _
  · exact settles_pure _
  · exact settles_anyOf h htest names
  · exact settles_pure _

/-- Once a type decides, the names behind it are not resolved. -/
theorem agree_scan_append {before : List String}
    (hdecided : firstDecided judge (.ok t :: before.map answer) ≠ .ok false)
    (after : List String) :
    Agree good (scan ops t test (before ++ after)) (scan ops t test before) := by
  refine (htest t (.inl rfl)).agree_bind ?_
  rw [firstDecided_ok_cons] at hdecided
  rcases hjudge : judge t with e | _ | _
  · exact agree_pure _
  · rw [hjudge] at hdecided
    exact agree_anyOf_append (settles_anyOf h htest before) hdecided after
  · exact agree_pure _

end Scan

/-- Types that names resolve to are met. -/
theorem met_of_mapM_eq_ok {us : List TypeDescription} {u : TypeDescription}
    (hus : names.mapM answer = .ok us) (hu : u ∈ t :: us) : t.Met answer u := by
  obtain rfl | hu := List.mem_cons.1 hu
  · exact .inl rfl
  · have hanswered : Except.ok u ∈ names.map answer := by
      rw [map_eq_of_mapM_eq_ok hus]
      exact List.mem_map_of_mem hu
    obtain ⟨name, -, hname⟩ := List.mem_map.1 hanswered
    exact .inr ⟨name, hname⟩

/-- Where every name resolves and every answer is yes or no, the scan says whether some type was a hit.
-/
theorem exists_firstDecided_of_mapM_eq_ok {us : List TypeDescription}
    (hnever : ∀ u, t.Met answer u → ∃ hit, judge u = .ok hit)
    (hus : names.mapM answer = .ok us) :
    ∃ hit, firstDecided judge (.ok t :: names.map answer) = .ok hit
      ∧ (hit = true ↔ ∃ u ∈ t :: us, judge u = .ok true) := by
  rw [map_eq_of_mapM_eq_ok hus, ← List.map_cons]
  exact exists_firstDecided_map_ok fun u hu => hnever u (met_of_mapM_eq_ok hus hu)

/-- **Looking for a super type** is a scan of the type and the types above it, in the order in
which the super types are collected; the scan may end with the name that decides. If the super
types can be told and the matcher does not fail, then the answer is whether it accepts the type or
one of them; if they cannot, the answer is still yes if it accepts one before the name that does
not resolve. -/
theorem hasSuperType_scans (h : t.Sees ops good answer) (m : Matcher .type)
    (judge : TypeDescription → Answer)
    (hm : ∀ u, t.Met answer u → Settles good (m.eval ops u) (.ok (judge u))) :
    ∃ names, Enumerates (namesAbove answer) t.superNames names
      ∧ Settles good (t.superTypes ops) (.ok (names.mapM answer))
      ∧ Agree good ((hasSuperType m).eval ops t) (scan ops t (fun u => m.eval ops u) names)
      ∧ Settles good ((hasSuperType m).eval ops t)
        (.ok (firstDecided judge (.ok t :: names.map answer)))
      ∧ (∀ before after, names = before ++ after →
        firstDecided judge (.ok t :: before.map answer) ≠ .ok false →
        Agree good ((hasSuperType m).eval ops t) (scan ops t (fun u => m.eval ops u) before))
      ∧ ((∀ u, t.Met answer u → ∃ hit, judge u = .ok hit) →
        (∀ us, names.mapM answer = .ok us →
          ∃ hit, Settles good ((hasSuperType m).eval ops t) (.ok (.ok hit))
            ∧ (hit = true ↔ ∃ u ∈ t :: us, judge u = .ok true))
        ∧ ∀ before bad after us e, names = before ++ bad :: after →
          before.mapM answer = .ok us → answer bad = .error e →
          (∃ u ∈ t :: us, judge u = .ok true) →
          Settles good ((hasSuperType m).eval ops t) (.ok (.ok true))) := by
  obtain ⟨pooled, hpooled, -⟩ := h.finite
  obtain ⟨names, hnames⟩ := TypeDescription.exists_enumerates t hpooled
  have hscan : Agree good ((hasSuperType m).eval ops t)
      (scan ops t (fun u => m.eval ops u) names) :=
    agree_searchHierarchy_scan h hm hnames
  have hanswer : Settles good ((hasSuperType m).eval ops t)
      (.ok (firstDecided judge (.ok t :: names.map answer))) :=
    hscan.settles (settles_scan h hm names)
  refine ⟨names, hnames, h.settles_superTypes hnames, hscan, hanswer, ?_, fun hnever => ⟨?_, ?_⟩⟩
  · rintro before after rfl hdecided
    exact hscan.trans (agree_scan_append h hm hdecided after)
  · intro us hus
    obtain ⟨hit, heq, hiff⟩ := exists_firstDecided_of_mapM_eq_ok hnever hus
    rw [heq] at hanswer
    exact ⟨hit, hanswer, hiff⟩
  · rintro before bad after us e rfl hus - hyes
    obtain ⟨hit, heq, hiff⟩ := exists_firstDecided_of_mapM_eq_ok hnever hus
    rw [hiff.2 hyes] at heq
    have hmore := firstDecided_append_of_ne (by rw [heq]; nofun) ((bad :: after).map answer)
    rw [List.cons_append, ← List.map_append, heq] at hmore
    rw [hmore] at hanswer
    exact hanswer

end Search

/-- `TypeDescription.leaf` with another interface, which does not resolve. -/
def astray : TypeDescription :=
  { TypeDescription.leaf with interfaces := ["Face", "Lost"] }

/-- The interface in front of the one that does not resolve is found, and that one is not even asked
for. -/
theorem hasSuperType_scans_astray :
    let ops := MemoryHost.loaderOps
    let s := TypeDescription.leafSession (.new #[])
    let m : Matcher .type := .name .equals "Face"
    ((astray.superTypes ops).run s).1 = .ok (.error (.unresolvable "Lost" "unknown"))
      ∧ ((m.hasSuperType.eval ops astray).run s).1 = .ok (.ok true)
      ∧ (m.hasSuperType.eval ops astray).run s
        = (scan ops astray (fun u => m.eval ops u) ["Base", "Face"]).run s := by
  intro ops s m
  have hs : ∃ pool, s.pools[0]? = some pool
      ∧ pool.source = .described TypeDescription.leafTypes 3 := ⟨_, rfl, rfl⟩
  obtain ⟨names, hnames, hsuper, -, hanswer, hcut, -⟩ := hasSuperType_scans
    (TypeDescription.sees_leafTypes ops (t := astray) rfl) m
    (fun u => .ok (NameTest.equals.holds u.name "Face")) fun u _ => settles_pure _
  obtain rfl : names = ["Base", "Face", "Lost", "java.lang.Object", "Leaf"] :=
    hnames.unique (enumerates_walk (n := 6) (by decide +kernel))
  have hfailed := hsuper.run_eq hs
  have hfound := hanswer.run_eq hs
  refine ⟨hfailed, hfound, ?_⟩
  exact (hcut ["Base", "Face"] _ rfl (by decide +kernel) s hs).1

end Matcher

end AdviceWeaver

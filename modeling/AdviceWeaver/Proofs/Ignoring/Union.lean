import AdviceWeaver.Hosting.Memory
import AdviceWeaver.Proofs.Pipeline.Questions

/-!
# Ignore rules as a union

Ignore rules are added one after the other, and each is asked only if those before it said no. A rule that
fails ends the evaluation, but it counts as a hit; so it hides no other rule, and none hides it: what comes
of all is whether there is one that does not say no. The order in which they were added does not matter for
that, nor does a rule ever stand against another.

## Main results

* `Matcher.exists_settles_foldl_or` — when none of several matchers objects.
* `IgnoreRules.foldl_add` — the rules that calls add.
* `IgnoreRules.covers_union` — the verdict, whatever the order of the rules, and whatever else is added.
-/

namespace AdviceWeaver

open Act

variable {ε : Type} {ops : LoaderOps ε} {good : Session ε → Prop} {s : Session ε}

/-! ### One of several matchers -/

namespace Matcher

variable {k : Kind} {m n : Matcher k} {t : Target k}

/-- Asked about the target, the matcher says yes or no, or fails, whenever it is asked. -/
def Answers (ops : LoaderOps ε) (good : Session ε → Prop) (m : Matcher k) (t : Target k) : Prop :=
  ∃ answer, Settles good (m.eval ops t) (.ok answer)

/-- A matcher that settles on an answer is told by it: yes and a failure are hits. -/
theorem agreesOrFails_of_settles {answer : Answer} (hs : good s)
    (h : Settles good (m.eval ops t) (.ok answer)) :
    m.agreesOrFails ops s t = countsAsHit answer :=
  agreesOrFails_eq (h.run_eq hs)

/-- The second one of two matchers is asked if the first one says no. -/
theorem settles_or {a b : Answer} (hm : Settles good (m.eval ops t) (.ok a))
    (hn : Settles good (n.eval ops t) (.ok b)) :
    ∃ c, Settles good ((Matcher.or m n).eval ops t) (.ok c) ∧ countsAsHit c
      = (countsAsHit a || countsAsHit b) := by
  rcases a with e | _ | _
  · exact ⟨.error e, hm.bind (settles_pure _), rfl⟩
  · exact ⟨b, hm.bind hn, rfl⟩
  · exact ⟨.ok true, hm.bind (settles_pure _), rfl⟩

/-- **One of several matchers**, added to another one from left to right: it counts as a hit if one of them
does. -/
theorem exists_settles_foldl_or (hs : good s) {ms : List (Matcher k)} (hm : m.Answers ops good t)
    (hms : ∀ n ∈ ms, n.Answers ops good t) :
    ∃ answer, Settles good ((ms.foldl Matcher.or m).eval ops t) (.ok answer)
      ∧ (countsAsHit answer = true
        ↔ m.agreesOrFails ops s t = true ∨ ∃ n ∈ ms, n.agreesOrFails ops s t = true) := by
  induction ms generalizing m with
  | nil =>
    obtain ⟨answer, hanswer⟩ := hm
    exact ⟨answer, hanswer, by simp [agreesOrFails_of_settles hs hanswer]⟩
  | cons n rest ih =>
    obtain ⟨⟨b, hn⟩, hrest⟩ := List.forall_mem_cons.1 hms
    obtain ⟨a, hm⟩ := hm
    obtain ⟨c, hc, hhit⟩ := settles_or hm hn
    obtain ⟨answer, hanswer, hiff⟩ := ih ⟨c, hc⟩ hrest
    refine ⟨answer, hanswer, hiff.trans ?_⟩
    rw [agreesOrFails_of_settles hs hc, hhit, agreesOrFails_of_settles hs hm,
      List.exists_mem_cons_iff, agreesOrFails_of_settles hs hn, Bool.or_eq_true, or_assoc]

/-- One of several matchers, which are asked from left to right. -/
def union (ms : List (Matcher k)) : Matcher k :=
  ms.foldl .or (.constant false)

/-- The union of matchers settles, and hits exactly if one of them does, by induction on them. -/
theorem exists_settles_union (hs : good s) {ms : List (Matcher k)}
    (hms : ∀ m ∈ ms, m.Answers ops good t) :
    ∃ answer, Settles good ((union ms).eval ops t) (.ok answer)
      ∧ (countsAsHit answer = true ↔ ∃ m ∈ ms, m.agreesOrFails ops s t = true) := by
  have hnone : Settles good ((constant (k := k) false).eval ops t) (.ok (.ok false)) := settles_pure _
  obtain ⟨answer, hanswer, hiff⟩ := exists_settles_foldl_or hs ⟨_, hnone⟩ hms
  refine ⟨answer, hanswer, hiff.trans (or_iff_right ?_)⟩
  rw [agreesOrFails_of_settles hs hnone]
  nofun

end Matcher

/-! ### Rules that are added -/

/-- A call that adds a rule. -/
inductive IgnoreCall where
  | type (m : Matcher .type)
  | loader (m : Matcher .loader)
  | hookClass (name : String)

namespace IgnoreCall

/-- The rule for types that is added, if any. -/
def types : IgnoreCall → List (Matcher .type)
  | .type m => [m]
  | .loader _ => []
  | .hookClass name => [.name .equals name]

/-- The rule for loaders that is added, if any. -/
def loaders : IgnoreCall → List (Matcher .loader)
  | .loader m => [m]
  | _ => []

/-- The rule that is added says yes or no, or fails. -/
def Answers (ops : LoaderOps ε) (good : Session ε → Prop) (t : TypeDescription)
    (l : LoaderDescription) : IgnoreCall → Prop
  | .type m => m.Answers ops good t
  | .loader m => m.Answers ops good l
  | .hookClass _ => True

variable {c : IgnoreCall} {t : TypeDescription} {l : LoaderDescription}

/-- The type matchers of a call answer if the call does. -/
theorem Answers.types (h : c.Answers ops good t l) : ∀ m ∈ c.types, m.Answers ops good t := by
  intro m hm
  cases c with
  | type m' =>
    rw [List.mem_singleton.1 hm]
    exact h
  | loader m' => cases hm
  | hookClass name =>
    rw [List.mem_singleton.1 hm]
    exact ⟨_, settles_pure _⟩

/-- The loader matchers of a call answer if the call does. -/
theorem Answers.loaders (h : c.Answers ops good t l) : ∀ m ∈ c.loaders, m.Answers ops good l := by
  intro m hm
  cases c with
  | type m' => cases hm
  | loader m' =>
    rw [List.mem_singleton.1 hm]
    exact h
  | hookClass name => cases hm

end IgnoreCall

/-- What rules are added to. -/
inductive IgnoreBase where
  | empty
  | default

namespace IgnoreBase

def rules : IgnoreBase → IgnoreRules
  | .empty => .empty
  | .default => .default

/-- The rules for types that are there at first. -/
def types : IgnoreBase → List (Matcher .type)
  | .empty => []
  | .default => IgnoreRules.ignoredStarts.map (.name .startsWith)
    ++ IgnoreRules.ignoredParts.map (.name .contains)

/-- The rules for loaders that are there at first. -/
def loaders : IgnoreBase → List (Matcher .loader)
  | .empty => []
  | .default => [Matcher.isReflectionLoader,
    .loaderNamed "org.codehaus.groovy.runtime.callsite.CallSiteClassLoader"]

/-- The rules to start with are unions of matchers. -/
theorem rules_eq (base : IgnoreBase) :
    base.rules = ⟨Matcher.union base.types, Matcher.union base.loaders⟩ := by
  cases base <;> rfl

/-- They always say yes or no. -/
theorem answers_of_mem_types {base : IgnoreBase} {m : Matcher .type} (hm : m ∈ base.types)
    (t : TypeDescription) : m.Answers ops good t := by
  cases base with
  | empty => cases hm
  | default =>
    rcases List.mem_append.1 hm with hm | hm
    · obtain ⟨text, -, rfl⟩ := List.mem_map.1 hm
      exact ⟨_, settles_pure _⟩
    · obtain ⟨text, -, rfl⟩ := List.mem_map.1 hm
      exact ⟨_, settles_pure _⟩

/-- The loader matchers to start with answer at once. -/
theorem answers_of_mem_loaders {base : IgnoreBase} {m : Matcher .loader} (hm : m ∈ base.loaders)
    (l : LoaderDescription) : m.Answers ops good l := by
  have hnamed (type : String) :
      ∃ b, Settles good ((Matcher.loaderNamed type).eval ops l) (.ok (.ok b)) :=
    ⟨_, settles_pure _⟩
  cases base with
  | empty => cases hm
  | default =>
    simp only [loaders, List.mem_cons, List.not_mem_nil, or_false] at hm
    rcases hm with rfl | rfl
    · obtain ⟨a, ha⟩ := hnamed "sun.reflect.DelegatingClassLoader"
      obtain ⟨b, hb⟩ := hnamed "jdk.internal.reflect.DelegatingClassLoader"
      obtain ⟨c, hc, -⟩ := Matcher.settles_or ha hb
      exact ⟨c, hc⟩
    · obtain ⟨a, ha⟩ := hnamed "org.codehaus.groovy.runtime.callsite.CallSiteClassLoader"
      exact ⟨_, ha⟩

end IgnoreBase

namespace IgnoreRules

/-- The rules after a call. -/
def add (r : IgnoreRules) : IgnoreCall → IgnoreRules
  | .type m => r.ignoreType m
  | .loader m => r.ignoreLoader m
  | .hookClass name => r.ignoreHookClass name

/-- **Calls** add their rules behind those that are there. -/
theorem foldl_add (types : List (Matcher .type)) (loaders : List (Matcher .loader))
    (calls : List IgnoreCall) :
    calls.foldl add ⟨Matcher.union types, Matcher.union loaders⟩
      = ⟨Matcher.union (types ++ calls.flatMap IgnoreCall.types),
        Matcher.union (loaders ++ calls.flatMap IgnoreCall.loaders)⟩ := by
  induction calls generalizing types loaders with
  | nil => simp
  | cons c rest ih =>
    have hadd : add ⟨Matcher.union types, Matcher.union loaders⟩ c
        = ⟨Matcher.union (types ++ c.types), Matcher.union (loaders ++ c.loaders)⟩ := by
      cases c <;> simp [add, ignoreType, ignoreLoader, ignoreHookClass, Matcher.union,
        IgnoreCall.types, IgnoreCall.loaders]
    rw [List.foldl_cons, hadd, ih, List.flatMap_cons, List.flatMap_cons, List.append_assoc,
      List.append_assoc]

section Verdict

variable {base : IgnoreBase} {calls calls' : List IgnoreCall} {t : TypeDescription}
  {l : LoaderDescription}

/-- Of the rules for loaders, those at first or those that were added, one says yes to the loader or
fails; or one of those for types does so for the type. -/
def SomeHits (ops : LoaderOps ε) (s : Session ε) (base : IgnoreBase) (calls : List IgnoreCall)
    (t : TypeDescription) (l : LoaderDescription) : Prop :=
  (∃ m ∈ base.loaders ++ calls.flatMap IgnoreCall.loaders, m.agreesOrFails ops s l = true)
    ∨ ∃ m ∈ base.types ++ calls.flatMap IgnoreCall.types, m.agreesOrFails ops s t = true

/-- More rules, in whatever order, hit what fewer rules do. -/
theorem SomeHits.mono (h : SomeHits ops s base calls t l) (hsub : calls ⊆ calls') :
    SomeHits ops s base calls' t l := by
  have hmem {α : Type} {first : List α} {added : IgnoreCall → List α} {a : α}
      (ha : a ∈ first ++ calls.flatMap added) : a ∈ first ++ calls'.flatMap added := by
    rw [List.mem_append, List.mem_flatMap] at ha ⊢
    exact ha.imp_right fun ⟨c, hc, ha⟩ => ⟨c, hsub hc, ha⟩
  rcases h with ⟨m, hm, hhit⟩ | ⟨m, hm, hhit⟩
  · exact .inl ⟨m, hmem hm, hhit⟩
  · exact .inr ⟨m, hmem hm, hhit⟩

variable (hjournal : ∀ s journal, good s → good { s with journal }) (hs : good s)
include hjournal hs

/-- **The verdict** on a class. -/
theorem exists_settles_covers_foldl (hcalls : ∀ c ∈ calls, c.Answers ops good t l) :
    ∃ hit, Settles good ((calls.foldl add base.rules).covers ops t l) (.ok hit)
      ∧ (hit = true ↔ SomeHits ops s base calls t l) := by
  rw [base.rules_eq, foldl_add]
  have htypes : ∀ m ∈ base.types ++ calls.flatMap IgnoreCall.types, m.Answers ops good t := by
    rw [List.forall_mem_append, List.forall_mem_flatMap]
    exact ⟨fun m hm => IgnoreBase.answers_of_mem_types hm t, fun c hc => (hcalls c hc).types⟩
  have hloaders : ∀ m ∈ base.loaders ++ calls.flatMap IgnoreCall.loaders, m.Answers ops good l := by
    rw [List.forall_mem_append, List.forall_mem_flatMap]
    exact ⟨fun m hm => IgnoreBase.answers_of_mem_loaders hm l, fun c hc => (hcalls c hc).loaders⟩
  obtain ⟨a, ha, hloader⟩ := Matcher.exists_settles_union hs hloaders
  obtain ⟨b, hb, htype⟩ := Matcher.exists_settles_union hs htypes
  refine ⟨_, settles_covers_of hjournal ha hb, ?_⟩
  rw [Bool.or_eq_true, hloader, htype]
  rfl

/-- **Ignore rules** hit a class if some rule for loaders says yes to its loader or fails, or some rule
for types does so for the class itself. In another order they come to the same, and more rules hit what
fewer do. -/
theorem covers_union (base : IgnoreBase) (hcalls : ∀ c ∈ calls, c.Answers ops good t l) :
    ∃ hit, Settles good ((calls.foldl add base.rules).covers ops t l) (.ok hit)
      ∧ (hit = true ↔ SomeHits ops s base calls t l)
      ∧ (∀ calls' : List IgnoreCall, calls'.Perm calls →
        Settles good ((calls'.foldl add base.rules).covers ops t l) (.ok hit))
      ∧ ∀ calls' : List IgnoreCall, calls ⊆ calls' → (∀ c ∈ calls', c.Answers ops good t l) → hit = true →
        Settles good ((calls'.foldl add base.rules).covers ops t l) (.ok true) := by
  obtain ⟨hit, hcovers, hiff⟩ := exists_settles_covers_foldl hjournal hs hcalls
  refine ⟨hit, hcovers, hiff, fun calls' hperm => ?_, fun calls' hsub hcalls' hhit => ?_⟩
  · have hcalls' : ∀ c ∈ calls', c.Answers ops good t l := fun c hc =>
      hcalls c (hperm.mem_iff.1 hc)
    obtain ⟨hit', hcovers', hiff'⟩ := exists_settles_covers_foldl hjournal hs hcalls'
    have hsame : hit' = hit := Bool.eq_iff_iff.2 (hiff'.trans (Iff.trans
      ⟨fun h => h.mono hperm.subset, fun h => h.mono hperm.symm.subset⟩ hiff.symm))
    rwa [hsame] at hcovers'
  · obtain ⟨hit', hcovers', hiff'⟩ := exists_settles_covers_foldl hjournal hs hcalls'
    rwa [hiff'.2 ((hiff.1 hhit).mono hsub)] at hcovers'

end Verdict

/-- A class whose super class cannot be looked up. -/
def sampleUnresolved : TypeDescription :=
  { TypeDescription.ofName "shop.Order" with superClass := some "shop.Base" }

/-- A rule that says no, one that fails as the super types are not known, one for a hook, and one for
loaders that fails on those without a type. -/
def sampleIgnoreCalls : List IgnoreCall :=
  [.type (.name .startsWith "bank."), .type (.isSubTypeOf "shop.Marker"), .hookClass "shop.Hook",
    .loader (.custom "typed()" fun l => ⟨none,
      if LoaderDescription.typeName l = none then .failed (.failed "untyped") else .answer false⟩)]

/-- The rule that fails decides, wherever it stands, and whatever is added. -/
theorem covers_union_sample :
    Settles (fun _ => True)
        ((sampleIgnoreCalls.reverse.foldl add default).covers MemoryHost.loaderOps sampleUnresolved
          ⟨some "AppClassLoader", none⟩) (.ok true)
      ∧ Settles (fun _ => True)
        (((.type (.constant false) :: sampleIgnoreCalls).foldl add default).covers
          MemoryHost.loaderOps sampleUnresolved ⟨some "AppClassLoader", none⟩) (.ok true) := by
  have hfails : Settles (fun _ => True)
      ((Matcher.isSubTypeOf "shop.Marker").eval MemoryHost.loaderOps sampleUnresolved)
      (.ok (.error (.unresolvable "shop.Base" "no type pool"))) :=
    fun s _ => ⟨s, rfl, trivial⟩
  have hcalls : ∀ c ∈ sampleIgnoreCalls, c.Answers MemoryHost.loaderOps (fun _ => True)
      sampleUnresolved ⟨some "AppClassLoader", none⟩ := by
    simp only [sampleIgnoreCalls, List.forall_mem_cons]
    refine ⟨⟨_, settles_pure _⟩, ⟨_, hfails⟩, trivial, ⟨_, settles_pure _⟩, nofun⟩
  have hmore : ∀ c ∈ .type (.constant false) :: sampleIgnoreCalls, c.Answers MemoryHost.loaderOps
      (fun _ => True) sampleUnresolved ⟨some "AppClassLoader", none⟩ :=
    List.forall_mem_cons.2 ⟨⟨_, settles_pure _⟩, hcalls⟩
  obtain ⟨hit, -, hiff, hperm, hsub⟩ :=
    covers_union (s := .start (MemoryHost.new #[])) (fun _ _ _ => trivial) trivial .default hcalls
  have hmem : .isSubTypeOf "shop.Marker" ∈ IgnoreBase.default.types
      ++ sampleIgnoreCalls.flatMap IgnoreCall.types := by
    simp [sampleIgnoreCalls, IgnoreCall.types]
  obtain rfl : hit = true := hiff.2 (.inr ⟨_, hmem, rfl⟩)
  exact ⟨hperm _ (List.reverse_perm _), hsub _ (List.subset_cons_self _ _) hmore rfl⟩

end IgnoreRules

end AdviceWeaver

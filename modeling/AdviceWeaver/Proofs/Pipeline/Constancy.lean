import AdviceWeaver.Proofs.Pipeline.Building
import AdviceWeaver.Proofs.Pipeline.Installing

/-!
# One answer for each class

What a pipeline makes of a class is the same whenever it is asked, whether the class is new or exists
already, and whichever record the pipeline has: as long as the class loaders say the same, nothing in
a session matters but the number that the pool of the class happens to have, and steady matchers do not
look at that.

## Main results

* `Matcher.agrees_boundTo_eq` — a steady matcher says the same of a class in all sessions.
* `Pipeline.exists_answer` — a class has one answer.
* `Pipeline.Weaves.settles_mayTransform` — such a class is never left out when a pipeline is
  installed.
-/

namespace AdviceWeaver

open Act

variable {ε : Type} {ops : LoaderOps ε} {fits : ε → Prop} {s s' : Session ε}

/-! ### Matchers -/

namespace Matcher

/-- Methods and loaders are not bound to anything. -/
theorem isSteady_of_ne_type {homes : Option Home → Prop} {k : Kind} (m : Matcher k)
    (hk : k ≠ .type) : m.IsSteady homes := by
  induction m with
  | not m ih => exact ih hk
  | and m n ihm ihn => exact ⟨ihm hk, ihn hk⟩
  | or m n ihm ihn => exact ⟨ihm hk, ihn hk⟩
  | @custom k label judge =>
    cases k with
    | type => exact absurd rfl hk
    | method => exact fun _ _ _ _ _ => rfl
    | loader => exact fun _ _ _ _ _ => rfl
  | hasSuperType m => exact absurd rfl hk
  | declaresMethod m => exact absurd rfl hk
  | _ => exact trivial

variable {h h' : Home} {size size' : Nat} {records records' : Array (List String)}
  (hops : ops.Reliable fits) (hloader : h.loader = h'.loader)
  (hs : s.Coherent ops fits (some h) size records)
  (hs' : s'.Coherent ops fits (some h') size' records')
include hops hloader hs hs'

/-- **A steady matcher** says the same of a class in all sessions. -/
theorem agrees_boundTo_eq {k : Kind} (m : Matcher k) (hm : m.IsSteady fun _ => True)
    (t : Target k) :
    m.agrees ops s (t.boundTo (some h)) = m.agrees ops s' (t.boundTo (some h')) := by
  let Place := { i : Home × Nat × Array (List String) // i.1.loader = h.loader }
  have hhome (i : Place) : (some i.1.1).map Home.loader = some h.loader := congrArg some i.2
  obtain ⟨v, hv⟩ : ∃ v, ∀ i : Place,
      Settles (Session.Coherent ops fits (some i.1.1) i.1.2.1 i.1.2.2)
        (m.eval ops (t.boundTo (some i.1.1))) v :=
    m.exists_settles_eval_boundTo hhome hops (hm.mono fun _ _ => trivial) t
  have hverdict : m.verdict ops s (t.boundTo (some h)) = v :=
    (hv ⟨(h, size, records), rfl⟩).run_eq hs
  have hverdict' : m.verdict ops s' (t.boundTo (some h')) = v :=
    (hv ⟨(h', size', records'), hloader.symm⟩).run_eq hs'
  rw [agrees, agrees, hverdict, hverdict']

end Matcher

/-- The name that a class is ignored by: the one that the host gives, or else its own. -/
def TransformRequest.knownName (r : TransformRequest) (t : TypeDescription) : String :=
  (r.className.map binaryName).getD t.name

namespace Pipeline

variable {p : Pipeline} {r : TransformRequest} {l : LoaderDescription} {c : ClassFile}
  {t : TypeDescription} {plan : WeavePlan} {out : Bytes}

/-- Methods receive the same hooks in all sessions. -/
theorem hooksFor_boundTo_eq {h h' : Home} {size size' : Nat}
    {records records' : Array (List String)} (hops : ops.Reliable fits)
    (hloader : h.loader = h'.loader) (hs : s.Coherent ops fits (some h) size records)
    (hs' : s'.Coherent ops fits (some h') size' records') {rules : List Rule}
    (hrules : ∀ r ∈ rules, r.types.IsSteady fun _ => True) (m : MethodDescription) :
    hooksFor ops s rules l (t.boundTo (some h)) m
      = hooksFor ops s' rules l (t.boundTo (some h')) m := by
  refine congrArg (List.map Rule.hookCall) (List.filter_congr fun r hr => ?_)
  have hloaders : r.loaders.agrees ops s l = r.loaders.agrees ops s' l :=
    r.loaders.agrees_boundTo_eq hops hloader hs hs' (r.loaders.isSteady_of_ne_type nofun) l
  have htypes : r.types.agrees ops s (t.boundTo (some h))
      = r.types.agrees ops s' (t.boundTo (some h')) :=
    r.types.agrees_boundTo_eq hops hloader hs hs' (hrules r hr) t
  have hmethods : r.methods.agrees ops s m = r.methods.agrees ops s' m :=
    r.methods.agrees_boundTo_eq hops hloader hs hs' (r.methods.isSteady_of_ne_type nofun) m
  rw [Rule.applies, Rule.applies, Rule.wants, Rule.wants, hloaders, htypes, hmethods]

/-- Calm ignore rules look at nothing but the known name of a class and at its loader. -/
theorem exists_ignores (hcalm : p.ignore.Calm ops) :
    ∃ hit : String → LoaderDescription → Bool,
      (∀ (s : Session ε) (name : String) (l : LoaderDescription),
        (p.ignore.coversName ops name l).run s = (.ok (hit name l), s))
      ∧ ∀ (s : Session ε) (r : TransformRequest) (l : LoaderDescription) (t : TypeDescription),
        p.ignores ops s r l t = hit (r.knownName t) l := by
  obtain ⟨hit, hcovers⟩ := hcalm.exists_covers
  refine ⟨hit, fun s name l => (hcovers s (.ofName name) l).1, fun s r l t => ?_⟩
  unfold ignores TransformRequest.knownName
  cases r.className with
  | some name => exact (hcovers _ _ _).2
  | none => exact (hcovers _ _ _).2

/-- **A class that is woven once** is woven whenever it is asked for: by the same plan into the same
class file. -/
theorem Weaves.transfer (h : p.Weaves ops s r l c t plan out) (hops : ops.Reliable fits)
    (hcalm : p.ignore.Calm ops) (hrules : ∀ r ∈ p.rules, r.types.IsSteady fun _ => True)
    (hworld : fits s.world) (hworld' : fits s'.world) (record : RecordId) (redefining : Bool) :
    ({ p with record } : Pipeline).Weaves ops s' { r with redefining } l c
      (t.boundTo (some ⟨s'.pools.size, r.loader⟩)) plan out := by
  obtain ⟨d, hd, ht⟩ := h.described
  have hs : s.Coherent ops fits none s.pools.size s.records := .of_world hworld
  have hs' : s'.Coherent ops fits none s'.pools.size s'.records := .of_world hworld'
  have hloader : (⟨s.pools.size, r.loader⟩ : Home).loader
      = (⟨s'.pools.size, r.loader⟩ : Home).loader := rfl
  have hbound : t = t.boundTo (some ⟨s.pools.size, r.loader⟩) := by
    rw [ht]
    rfl
  refine ⟨h.read, ⟨d, hd, ?_⟩, ?_, h.tight, fun index => ?_, h.planned, h.woven⟩
  · rw [ht]
    rfl
  · obtain ⟨hit, -, hignores⟩ := exists_ignores hcalm
    change p.ignores ops s' { r with redefining } l (t.boundTo _) = false
    rw [hignores, ← h.kept, hignores]
    rfl
  · rw [h.hooks]
    refine congrArg (Option.getD · []) (congrArg (Option.map · _) (funext fun m => ?_))
    have hhooks : hooksFor ops (r.visit s) p.rules l (t.boundTo (some ⟨s.pools.size, r.loader⟩)) m
        = hooksFor ops (TransformRequest.visit { r with redefining } s') p.rules l
          (t.boundTo (some ⟨s'.pools.size, r.loader⟩)) m :=
      hooksFor_boundTo_eq hops hloader (hs.visit r) (hs'.visit { r with redefining }) hrules m
    rw [← hbound] at hhooks
    exact hhooks

/-- **A class has one answer**, whichever record the pipeline has and whether the class exists
already. -/
theorem exists_answer (hops : ops.Reliable fits) (hcalm : p.ignore.Calm ops)
    (hrules : ∀ r ∈ p.rules, r.types.IsSteady fun _ => True) (r : TransformRequest) :
    ∃ answer : Option Bytes, ∀ (record : RecordId) (redefining : Bool) (s s' : Session ε)
      (out? : Option Bytes), fits s.world →
      (({ p with record } : Pipeline).transform ops { r with redefining }).run s = (.ok out?, s') →
      out? = answer := by
  obtain ⟨l, hl⟩ := r.settles_loaderDescription hops
  have hends (record : RecordId) (redefining : Bool) {s s' : Session ε} {out? : Option Bytes}
      (hworld : fits s.world)
      (hrun : (({ p with record } : Pipeline).transform ops { r with redefining }).run s
        = (.ok out?, s')) :
      ({ p with record } : Pipeline).Ends ops fits s { r with redefining } l out? s' := by
    obtain ⟨l', hl', out', s₁, hrun', hends⟩ := exists_run_transform hops hworld
      (p := { p with record }) hcalm.neverPanic { r with redefining }
    obtain rfl : l = l' := by
      have hl₁ := (hl s.pools s.records).run_eq ⟨hworld, rfl, rfl⟩
      exact Except.ok.inj (hl₁.symm.trans hl')
    rw [hrun'] at hrun
    cases hrun
    exact hends
  by_cases hwoven : ∃ s record redefining c t plan out, fits s.world
      ∧ ({ p with record } : Pipeline).Weaves ops s { r with redefining } l c t plan out
  · obtain ⟨s₀, record₀, redefining₀, c, t, plan, out, hworld₀, hweaves⟩ := hwoven
    refine ⟨some out, fun record redefining s s' out? hworld hrun => ?_⟩
    have hweaves' := hweaves.transfer hops hcalm hrules hworld₀ hworld record redefining
    rcases (hends record redefining hworld hrun).2 with
      ⟨c', t', plan', out', hweaves'', rfl, -⟩ | ⟨hnot, -, -⟩
    · obtain ⟨-, -, -, rfl⟩ := hweaves'.unique hweaves''
      rfl
    · exact absurd hweaves' (hnot _ _ _ _)
  · refine ⟨none, fun record redefining s s' out? hworld hrun => ?_⟩
    rcases (hends record redefining hworld hrun).2 with
      ⟨c, t, plan, out, hweaves, -, -⟩ | ⟨-, hnone, -⟩
    · exact absurd ⟨s, record, redefining, c, t, plan, out, hworld, hweaves⟩ hwoven
    · exact hnone

/-! ### Classes that exist already -/

/-- A loader that one rule hits is found to be hit, whatever the rules in front of it come to. -/
theorem settles_anyLoaderMatch {good : Session ε → Prop}
    (hjournal : ∀ s journal, good s → good { s with journal }) {listed : LoadedClass}
    {rules : List Rule} {r : Rule} (hr : r ∈ rules)
    (hhit : Settles good (r.matchesLoader ops listed.loader) (.ok true)) :
    Settles good (mayTransform.anyLoaderMatch ops listed rules) (.ok true) := by
  induction rules with
  | nil => cases hr
  | cons first rest ih =>
    rcases List.mem_cons.1 hr with rfl | hr
    · exact hhit.bind (settles_pure true)
    · obtain ⟨hit, hfirst⟩ : ∃ hit, Settles good (first.matchesLoader ops listed.loader) (.ok hit) :=
        first.exists_settles_matchesLoader hjournal listed.loader
      cases hit with
      | false => exact hfirst.bind (ih hr)
      | true => exact hfirst.bind (settles_pure true)

/-- Some rule applies to the loader of a class that is woven. -/
theorem Weaves.exists_rule (h : p.Weaves ops s r l c t plan out) :
    ∃ rule ∈ p.rules, rule.loaders.agrees ops (r.visit s) l = true := by
  have hplanned := h.planned
  rw [h.eq_planFor, WeavePlan.isEmpty, List.isEmpty_eq_false_iff_exists_mem] at hplanned
  obtain ⟨⟨index, hooks⟩, hentry⟩ := hplanned
  obtain ⟨hne, m, -, rfl⟩ := mem_entries_planFor.1 hentry
  obtain ⟨hook, hhook⟩ := List.exists_mem_of_ne_nil _ hne
  obtain ⟨rule, hrule, -⟩ := List.mem_map.1 hhook
  obtain ⟨hmem, happlies⟩ := List.mem_filter.1 hrule
  rw [Rule.applies, Bool.and_eq_true, Bool.and_eq_true] at happlies
  exact ⟨rule, hmem, happlies.1.1⟩

/-- **A class that is woven** may always be transformed when it exists already. -/
theorem Weaves.settles_mayTransform (h : p.Weaves ops s r l c t plan out) (hops : ops.Reliable fits)
    (hcalm : p.ignore.Calm ops) (hworld : fits s.world) {good : Session ε → Prop}
    (hjournal : ∀ s journal, good s → good { s with journal }) {listed : LoadedClass}
    (hmodifiable : listed.modifiable = true) (hloader : listed.loader = l)
    (hname : listed.name = r.knownName t) :
    Settles good (p.mayTransform ops listed) (.ok true) := by
  obtain ⟨rule, hrule, hagrees⟩ := h.exists_rule
  obtain ⟨hit, hcovers, hignores⟩ := exists_ignores hcalm
  have hkept : hit listed.name listed.loader = false := by
    rw [hname, hloader, ← hignores s]
    exact h.kept
  have hcovers' : Settles good (p.ignore.coversName ops listed.name listed.loader) (.ok false) := by
    intro s hs
    refine ⟨s, ?_, hs⟩
    rw [hcovers, hkept]
  -- the rule says the same in any session, so what it says where the class is woven decides
  have hs : s.Coherent ops fits none s.pools.size s.records := .of_world hworld
  have hwoven := rule.settles_matchesLoader hops (hs.visit r) listed.loader
  rw [hloader, hagrees] at hwoven
  obtain ⟨hit', hmatches⟩ : ∃ hit, Settles (fun _ => True) (rule.matchesLoader ops l) (.ok hit) :=
    rule.exists_settles_matchesLoader (fun _ _ _ => trivial) l
  obtain rfl : true = hit' :=
    Except.ok.inj ((hwoven.run_eq (hs.visit r)).symm.trans (hmatches.run_eq trivial))
  obtain ⟨_, hgood⟩ : ∃ hit, Settles good (rule.matchesLoader ops l) (.ok hit) :=
    rule.exists_settles_matchesLoader hjournal l
  have hmatches' : Settles good (rule.matchesLoader ops listed.loader) (.ok true) :=
    hloader ▸ hmatches.of_forall hgood
  unfold mayTransform
  rw [hmodifiable]
  exact hcovers'.bind (settles_anyLoaderMatch hjournal hrule hmatches')

end Pipeline

end AdviceWeaver

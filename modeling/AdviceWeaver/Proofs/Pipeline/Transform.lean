import AdviceWeaver.Proofs.Hosting.Loaders
import AdviceWeaver.Proofs.Pipeline.Planning
import AdviceWeaver.Proofs.Weaving.WovenClass

/-!
# What a pipeline does to a class

A pipeline weaves a class if its ignore rules leave the class alone, the class can be read and
described, the rules plan a hook, and weaving succeeds (`Pipeline.Weaves`). Nothing else decides, so
each request has one outcome, and the record tells it apart from all others.

## Main results

* `Pipeline.Weaves.unique` — there is at most one way to weave a class.
* `Pipeline.run_transform` — a pipeline answers the woven class and records its name, or answers
  nothing and records nothing.
-/

namespace AdviceWeaver

open Act

variable {ε : Type} {ops : LoaderOps ε} {fits : ε → Prop} {size : Nat}
  {records : Array (List String)} {s s' : Session ε} {p : Pipeline} {r : TransformRequest}
  {l : LoaderDescription} {c : ClassFile} {t : TypeDescription} {plan : WeavePlan} {out : Bytes}

/-! ### The pool of a class -/

namespace TransformRequest

/-- The session in which a class is described: it has a new pool for the loader of the class. -/
def visit (r : TransformRequest) (s : Session ε) : Session ε :=
  { s with pools := s.pools.push ⟨.ofLoader r.loader, []⟩ }

/-- What a request says of its loader is the same whenever it is asked for. -/
theorem settles_loaderDescription (hops : ops.Reliable fits) (r : TransformRequest) :
    ∃ l, ∀ pools records,
      Settles (Session.Fit fits pools records) (r.loaderDescription ops) (.ok l) := by
  obtain ⟨className, loader, redefining, bytes⟩ := r
  cases loader with
  | none => exact ⟨_, fun _ _ => settles_pure _⟩
  | some id => exact hops.describe id

end TransformRequest

/-- A class finds a coherent session, whose new pool remembers nothing yet. -/
theorem Session.Coherent.visit (hs : s.Coherent ops fits none size records)
    (r : TransformRequest) :
    (r.visit s).Coherent ops fits (some ⟨size, r.loader⟩) (size + 1) records := by
  refine ⟨hs.world, ?_, hs.records, fun {h} heq => ?_⟩
  · rw [TransformRequest.visit, Array.size_push, hs.size]
  · cases heq
    rw [← hs.size]
    exact ⟨⟨.ofLoader r.loader, []⟩, Array.getElem?_push_size, rfl, nofun⟩

/-- A session in a fit world is coherent for a class without a home. -/
theorem Session.Coherent.of_world (hs : fits s.world) :
    s.Coherent ops fits none s.pools.size s.records :=
  ⟨hs, rfl, rfl, nofun⟩

/-! ### When a class is woven -/

namespace Pipeline

/-- Whether a class is ignored, by what the ignore rules answer in a session. They see no more than
its name if the host gives that, and else its description. -/
def ignores (ops : LoaderOps ε) (p : Pipeline) (s : Session ε) (r : TransformRequest)
    (l : LoaderDescription) (t : TypeDescription) : Bool :=
  match r.className with
  | some name => p.ignore.ignores ops s (.ofName (binaryName name)) l
  | none => p.ignore.ignores ops (r.visit s) t l

/-- In a session, a pipeline weaves the class of a request — the class file `c`, described by `t` —
into `out`, by a plan that gives each method the hooks of the rules that apply to it. -/
structure Weaves (ops : LoaderOps ε) (p : Pipeline) (s : Session ε) (r : TransformRequest)
    (l : LoaderDescription) (c : ClassFile) (t : TypeDescription) (plan : WeavePlan)
    (out : Bytes) : Prop where
  read : ClassFile.read r.bytes = .ok c
  described : ∃ d, TypeDescription.ofClassFile c = .ok d ∧ t = { d with pool := some s.pools.size }
  kept : p.ignores ops s r l t = false
  tight : plan.Tight
  hooks (index : Nat) : plan.hooksOf index
    = ((t.methods[index]?).map (hooksFor ops (r.visit s) p.rules l t)).getD []
  planned : plan.isEmpty = false
  woven : weave r.bytes c plan = .ok (some out)

/-- Reading and describing the class leave no choice. -/
theorem Weaves.class_eq (h : p.Weaves ops s r l c t plan out) {c' : ClassFile}
    {t' : TypeDescription} (hread : ClassFile.read r.bytes = .ok c')
    (ht' : ∃ d, TypeDescription.ofClassFile c' = .ok d
      ∧ t' = { d with pool := some s.pools.size }) : c = c' ∧ t = t' := by
  obtain rfl : c = c' := Except.ok.inj (h.read.symm.trans hread)
  obtain ⟨d, hd, rfl⟩ := h.described
  obtain ⟨d', hd', rfl⟩ := ht'
  obtain rfl : d = d' := Except.ok.inj (hd.symm.trans hd')
  exact ⟨rfl, rfl⟩

/-- The plan is the one that the rules make. -/
theorem Weaves.eq_planFor (h : p.Weaves ops s r l c t plan out) :
    plan = planFor ops (r.visit s) p.rules l t := by
  refine WeavePlan.eq_of_hooksOf_eq h.tight (tight_planFor p.rules) fun index => ?_
  rw [h.hooks, hooksOf_planFor]

/-- **There is at most one way** to weave a class. -/
theorem Weaves.unique {c' : ClassFile} {t' : TypeDescription} {plan' : WeavePlan} {out' : Bytes}
    (h : p.Weaves ops s r l c t plan out) (h' : p.Weaves ops s r l c' t' plan' out') :
    c = c' ∧ t = t' ∧ plan = plan' ∧ out = out' := by
  obtain ⟨rfl, rfl⟩ := h.class_eq h'.read h'.described
  obtain rfl : plan = plan' := h.eq_planFor.trans h'.eq_planFor.symm
  have hout := Except.ok.inj (h.woven.symm.trans h'.woven)
  exact ⟨rfl, rfl, rfl, Option.some.inj hout⟩

/-- How a request ends: with the woven class and its name in the record, or with nothing. -/
def Ends (ops : LoaderOps ε) (fits : ε → Prop) (p : Pipeline) (s : Session ε)
    (r : TransformRequest) (l : LoaderDescription) (out? : Option Bytes) (s' : Session ε) : Prop :=
  fits s'.world ∧
    ((∃ c t plan out, p.Weaves ops s r l c t plan out ∧ out? = some out
      ∧ s'.records = s.records.modify p.record (Text.insertAscending t.name))
    ∨ ((∀ c t plan out, ¬ p.Weaves ops s r l c t plan out) ∧ out? = none
      ∧ s'.records = s.records))

/-! ### The end of a request -/

section Ends

variable {home : Option Home} {s₀ : Session ε}

/-- An action that answers nothing and settles ends a request that is not woven. -/
theorem exists_run_of_not_weaves {a : Act ε (Option Bytes)}
    (ha : Settles (Session.Coherent ops fits home size s₀.records) a (.ok none))
    (hs : s.Coherent ops fits home size s₀.records)
    (hnot : ∀ c t plan out, ¬ p.Weaves ops s₀ r l c t plan out) :
    ∃ out? s', a.run s = (.ok out?, s') ∧ p.Ends ops fits s₀ r l out? s' := by
  obtain ⟨s', hrun, hs'⟩ := ha s hs
  exact ⟨none, s', hrun, hs'.world, .inr ⟨hnot, rfl, hs'.records⟩⟩

/-- Once there is a plan, it remains to see whether there is a hook in it, and whether it can be
woven in. -/
theorem exists_run_weaveInto (hs : s.Coherent ops fits home size s₀.records)
    (hread : ClassFile.read r.bytes = .ok c)
    (ht : ∃ d, TypeDescription.ofClassFile c = .ok d ∧ t = { d with pool := some s₀.pools.size })
    (hkept : p.ignores ops s₀ r l t = false) :
    ∃ out? s', (p.weaveInto r.bytes c t (planFor ops (r.visit s₀) p.rules l t)).run s
        = (.ok out?, s') ∧ p.Ends ops fits s₀ r l out? s' := by
  have hsame {c' : ClassFile} {t' : TypeDescription} {plan : WeavePlan} {out : Bytes}
      (h : p.Weaves ops s₀ r l c' t' plan out) :
      c' = c ∧ plan = planFor ops (r.visit s₀) p.rules l t := by
    obtain ⟨rfl, rfl⟩ := h.class_eq hread ht
    exact ⟨rfl, h.eq_planFor⟩
  generalize hplan : planFor ops (r.visit s₀) p.rules l t = plan at hsame ⊢
  unfold weaveInto
  by_cases hempty : plan.isEmpty = true
  · rw [if_pos hempty]
    refine exists_run_of_not_weaves (settles_pure none) hs fun c' t' plan' out h => ?_
    obtain ⟨-, rfl⟩ := hsame h
    exact absurd (hempty.symm.trans h.planned) Bool.noConfusion
  rw [if_neg hempty]
  cases hweave : weave r.bytes c plan with
  | error e =>
    refine exists_run_of_not_weaves
      ((Session.Coherent.settles_log _ _ _).bind (settles_pure none)) hs fun c' t' plan' out h => ?_
    obtain ⟨rfl, rfl⟩ := hsame h
    exact absurd (hweave.symm.trans h.woven) nofun
  | ok woven =>
    cases woven with
    | none =>
      refine exists_run_of_not_weaves (settles_pure none) hs fun c' t' plan' out h => ?_
      obtain ⟨rfl, rfl⟩ := hsame h
      exact absurd (hweave.symm.trans h.woven) nofun
    | some out =>
      have hweaves : p.Weaves ops s₀ r l c t plan out := by
        refine ⟨hread, ht, hkept, ?_, ?_, Bool.not_eq_true _ ▸ hempty, hweave⟩
        · rw [← hplan]
          exact tight_planFor p.rules
        · rw [← hplan]
          exact hooksOf_planFor p.rules
      obtain ⟨s₁, hlog, hs₁⟩ := Session.Coherent.settles_log .debug ("transformed " ++ t.name)
        [("type_name", t.name), ("methods", toString plan.size)] s hs
      refine ⟨some out, _, run_bind_ok hlog, hs₁.world,
        .inl ⟨c, t, plan, out, hweaves, rfl, ?_⟩⟩
      rw [← hs₁.records]

end Ends

/-! ### The course of a request -/

section Course

variable {s₀ : Session ε} (hops : ops.Reliable fits) (hworld : fits s₀.world)
  (hignore : p.ignore.NeverPanic ops fits)
include hops hworld hignore

omit hignore in
/-- A class that is not ignored is woven by the plan that its rules make. -/
theorem exists_run_planRules
    (hs : s.Coherent ops fits (some ⟨s₀.pools.size, r.loader⟩) (s₀.pools.size + 1) s₀.records)
    (hread : ClassFile.read r.bytes = .ok c)
    (ht : ∃ d, TypeDescription.ofClassFile c = .ok d ∧ t = { d with pool := some s₀.pools.size })
    (hkept : p.ignores ops s₀ r l t = false) :
    ∃ out? s', (do
        let plan ← planRules ops t r.loader l .empty p.rules
        p.weaveInto r.bytes c t plan).run s = (.ok out?, s')
      ∧ p.Ends ops fits s₀ r l out? s' := by
  have hlives : t.LivesAt (some ⟨s₀.pools.size, r.loader⟩) := by
    obtain ⟨d, -, rfl⟩ := ht
    exact .inr ⟨_, rfl, rfl⟩
  have hs₀ : s₀.Coherent ops fits none s₀.pools.size s₀.records := .of_world hworld
  have hvisit := hs₀.visit r
  obtain ⟨s₁, hplan, hs₁⟩ := settles_planRules hops hvisit hlives r.loader l p.rules s hs
  obtain ⟨out?, s', hrun, hends⟩ := exists_run_weaveInto hs₁ hread ht hkept
  exact ⟨out?, s', (run_bind_ok hplan).trans hrun, hends⟩

/-- A class that can be described is woven or left alone. If it is not known by name, that is when the
ignore rules are asked. -/
theorem exists_run_transformType (hs : s.Coherent ops fits none s₀.pools.size s₀.records)
    (hread : ClassFile.read r.bytes = .ok c) {d : TypeDescription}
    (hd : TypeDescription.ofClassFile c = .ok d)
    (hkept : ∀ name, r.className = some name →
      p.ignore.ignores ops s₀ (.ofName (binaryName name)) l = false) :
    ∃ out? s', (p.transformType ops r l c d).run s = (.ok out?, s')
      ∧ p.Ends ops fits s₀ r l out? s' := by
  obtain ⟨t, ht⟩ : ∃ t, t = { d with pool := some s₀.pools.size } := ⟨_, rfl⟩
  have hs₀ : s₀.Coherent ops fits none s₀.pools.size s₀.records := .of_world hworld
  have hvisit := hs.visit r
  have hvisit₀ := hs₀.visit r
  have hpool : (newPool (.ofLoader r.loader) : Act ε PoolId).run s
      = (.ok s₀.pools.size, r.visit s) := by
    rw [← hs.size]
    rfl
  have hrun : (p.transformType ops r l c d).run s = (do
      if r.className.isNone then
        if ← p.ignore.covers ops t l then return none
      let plan ← planRules ops t r.loader l .empty p.rules
      p.weaveInto r.bytes c t plan).run (r.visit s) := by
    rw [ht]
    unfold transformType
    exact run_bind_ok hpool
  rw [hrun]
  cases hname : r.className with
  | some name =>
    refine exists_run_planRules hops hworld hvisit hread ⟨d, hd, ht⟩ ?_
    rw [ignores, hname]
    exact hkept name hname
  | none =>
    have hlives : t.LivesAt (some ⟨s₀.pools.size, r.loader⟩) := .inr ⟨_, rfl, by rw [ht]⟩
    obtain ⟨s₁, hcovers, hs₁⟩ :=
      IgnoreRules.settles_covers hops hignore hvisit₀ hlives l (r.visit s) hvisit
    have hignores : p.ignores ops s₀ r l t = p.ignore.ignores ops (r.visit s₀) t l := by
      rw [ignores, hname]
    rw [← hignores] at hcovers
    cases hkept : p.ignores ops s₀ r l t with
    | false =>
      rw [hkept] at hcovers
      obtain ⟨out?, s', hrun, hends⟩ := exists_run_planRules hops hworld hs₁ hread ⟨d, hd, ht⟩ hkept
      exact ⟨out?, s', (run_bind_ok hcovers).trans hrun, hends⟩
    | true =>
      rw [hkept] at hcovers
      refine ⟨none, s₁, run_bind_ok hcovers, hs₁.world, .inr ⟨fun c' t' plan out h => ?_, rfl,
        hs₁.records⟩⟩
      obtain ⟨rfl, rfl⟩ := h.class_eq hread ⟨d, hd, ht⟩
      exact absurd (hkept.symm.trans h.kept) Bool.noConfusion

/-- The bytes of a class that is not ignored are transformed, and end as its description and plan say.
-/
theorem exists_run_transformBytes
    (hs : s.Coherent ops fits none s₀.pools.size s₀.records)
    (hkept : ∀ name, r.className = some name →
      p.ignore.ignores ops s₀ (.ofName (binaryName name)) l = false) :
    ∃ out? s', (p.transformBytes ops r l).run s = (.ok out?, s')
      ∧ p.Ends ops fits s₀ r l out? s' := by
  unfold transformBytes
  cases hread : ClassFile.read r.bytes with
  | error e =>
    refine exists_run_of_not_weaves
      ((Session.Coherent.settles_log _ _ _).bind (settles_pure none)) hs fun c t plan out h => ?_
    exact absurd (hread.symm.trans h.read) nofun
  | ok c =>
    dsimp only
    cases hd : TypeDescription.ofClassFile c with
    | error e =>
      refine exists_run_of_not_weaves
        ((Session.Coherent.settles_log _ _ _).bind (settles_pure none)) hs fun c' t plan out h => ?_
      obtain rfl : c = c' := Except.ok.inj (hread.symm.trans h.read)
      obtain ⟨d, hd', -⟩ := h.described
      exact absurd (hd.symm.trans hd') nofun
    | ok d => exact exists_run_transformType hops hworld hignore hs hread hd hkept

/-- A request has an end. The ignore rules are asked first if the class is known by name. -/
theorem exists_run_transform (r : TransformRequest) :
    ∃ l, ((r.loaderDescription ops).run s₀).1 = .ok l ∧
      ∃ out? s', (p.transform ops r).run s₀ = (.ok out?, s') ∧ p.Ends ops fits s₀ r l out? s' := by
  obtain ⟨l, hl⟩ := r.settles_loaderDescription hops
  have hs₀ : s₀.Coherent ops fits none s₀.pools.size s₀.records := .of_world hworld
  obtain ⟨s₁, hloader, hs₁⟩ := Session.Coherent.settles_of_fit hl s₀ hs₀
  refine ⟨l, by rw [hloader], ?_⟩
  unfold transform
  rw [run_bind_ok hloader]
  cases hname : r.className with
  | none =>
    refine exists_run_transformBytes hops hworld hignore hs₁ fun name h => ?_
    exact absurd (hname.symm.trans h) nofun
  | some name =>
    have hlives : TypeDescription.LivesAt none (.ofName (binaryName name)) := .inl rfl
    obtain ⟨s₂, hcovers, hs₂⟩ := IgnoreRules.settles_covers hops hignore hs₀ hlives l s₁ hs₁
    cases hkept : p.ignore.ignores ops s₀ (.ofName (binaryName name)) l with
    | false =>
      rw [hkept] at hcovers
      dsimp only [IgnoreRules.coversName]
      rw [run_bind_ok hcovers]
      refine exists_run_transformBytes hops hworld hignore hs₂ fun name' h => ?_
      obtain rfl : name = name' := Option.some.inj (hname.symm.trans h)
      exact hkept
    | true =>
      rw [hkept] at hcovers
      refine ⟨none, s₂, run_bind_ok hcovers, hs₂.world, .inr ⟨fun c t plan out h => ?_, rfl,
        hs₂.records⟩⟩
      have hignored := h.kept
      rw [ignores, hname] at hignored
      exact absurd (hkept.symm.trans hignored) Bool.noConfusion

end Course

/-- **What a pipeline does to a class** is what its rules say. It does not panic; it answers the woven
class if the rules weave the class, and only then, and it records the name of the class if it answers
anything, and only then. -/
theorem run_transform (hops : ops.Reliable fits) (p : Pipeline)
    (hignore : p.ignore.NeverPanic ops fits) (s : Session ε) (hworld : fits s.world)
    (r : TransformRequest) :
    ∃ l, ((r.loaderDescription ops).run s).1 = .ok l ∧
      ∃ out? s', (p.transform ops r).run s = (.ok out?, s')
        ∧ (∀ out, out? = some out ↔ ∃ c t plan, p.Weaves ops s r l c t plan out)
        ∧ (∀ c t plan out, p.Weaves ops s r l c t plan out →
          s'.records = s.records.modify p.record (Text.insertAscending t.name))
        ∧ (out? = none → s'.records = s.records) := by
  obtain ⟨l, hloader, out?, s', hrun, -, hends⟩ := exists_run_transform hops hworld hignore r
  refine ⟨l, hloader, out?, s', hrun, ?_⟩
  rcases hends with ⟨c, t, plan, woven, hweaves, rfl, hrecords⟩ | ⟨hnot, rfl, hrecords⟩
  · refine ⟨fun out => ⟨fun h => ?_, fun ⟨c', t', plan', h⟩ => ?_⟩, fun c' t' plan' out h => ?_,
      nofun⟩
    · obtain rfl := Option.some.inj h
      exact ⟨c, t, plan, hweaves⟩
    · obtain ⟨-, -, -, rfl⟩ := hweaves.unique h
      rfl
    · obtain ⟨-, rfl, -, -⟩ := hweaves.unique h
      exact hrecords
  · exact ⟨fun out => ⟨nofun, fun ⟨c, t, plan, h⟩ => absurd h (hnot c t plan out)⟩,
      fun c t plan out h => absurd h (hnot c t plan out), fun _ => hrecords⟩

/-- A pipeline of two rules, the first of which has a matcher that panics. -/
def sample : Pipeline where
  record := 0
  ignore := .empty
  rules :=
    [⟨"first", .custom "broken" fun _ => ⟨none, .panicked⟩, .constant true, .constant true,
      ⟨"G", .memory []⟩, true, true⟩,
     ⟨"second", .constant true, .constant true, .constant true, ⟨"H", .memory []⟩, true, true⟩]

/-- Whether the pipeline weaves a class called `A` that is asked for in a session. -/
def sampleWeaves (s : Session MemoryHost) (r : TransformRequest) : Bool :=
  match ClassFile.read r.bytes with
  | .ok c => match TypeDescription.ofClassFile c with
    | .ok d =>
      let plan := planFor MemoryHost.loaderOps (r.visit s) sample.rules .bootstrap
        { d with pool := some s.pools.size }
      d.name == "A" && !plan.isEmpty && (match weave r.bytes c plan with
        | .ok (some _) => true
        | _ => false)
    | .error _ => false
  | .error _ => false

/-- The class is woven by the second rule although the first one panics. -/
theorem run_transform_sample :
    ∃ out s', (sample.transform MemoryHost.loaderOps ⟨some "A", none, false, ClassFile.idle⟩).run
        ⟨.empty, #[], #[[]], .new #[]⟩ = (.ok (some out), s')
      ∧ s'.records = #[["A"]] := by
  let s : Session MemoryHost := ⟨.empty, #[], #[[]], .new #[]⟩
  let r : TransformRequest := ⟨some "A", none, false, ClassFile.idle⟩
  have hcheck : sampleWeaves s r = true := by
    decide +kernel
  unfold sampleWeaves at hcheck
  split at hcheck
  case h_2 => cases hcheck
  next c hread =>
  split at hcheck
  case h_2 => cases hcheck
  next d hd =>
  dsimp only at hcheck
  rw [Bool.and_eq_true, Bool.and_eq_true, beq_iff_eq, Bool.not_eq_true'] at hcheck
  obtain ⟨⟨hname, hplanned⟩, hwoven⟩ := hcheck
  split at hwoven
  case h_2 => cases hwoven
  next out hout =>
  have hweaves : sample.Weaves MemoryHost.loaderOps s r .bootstrap c { d with pool := some 0 }
      (planFor MemoryHost.loaderOps (r.visit s) sample.rules .bootstrap { d with pool := some 0 })
      out :=
    ⟨hread, ⟨d, hd, rfl⟩, rfl, tight_planFor _, hooksOf_planFor _, hplanned, hout⟩
  obtain ⟨l, hl, out?, s', hrun, houts, hrecords, -⟩ :=
    run_transform (MemoryHost.reliable_loaderOps fun h (hloaders : h.loaders = #[]) => hloaders)
      sample ⟨fun _ _ => ⟨_, rfl⟩, fun _ _ => ⟨_, rfl⟩⟩ s rfl r
  obtain rfl : .bootstrap = l := Except.ok.inj hl
  refine ⟨out, s', ?_, ?_⟩
  · rw [← (houts out).2 ⟨c, _, _, hweaves⟩]
    exact hrun
  · rw [hrecords _ _ _ _ hweaves]
    dsimp only
    rw [hname]
    rfl

end Pipeline

end AdviceWeaver

import AdviceWeaver.Proofs.Pipeline.Building
import AdviceWeaver.Proofs.Pipeline.Ignored
import AdviceWeaver.Proofs.Pipeline.Transform

/-!
# Classes whose name the host does not give

A host need not tell the name of a class. If it does, the ignore rules are asked before the class file is
read, about a bare type of that name; if it does not, they are asked about the type in the class file.
That is all the difference it makes: behind the ignore rules, a pipeline does the same with both
requests (`Pipeline.outcome_eq_ite`). Ignore rules that look at nothing but names of types, as those do
that a pipeline has by itself, cannot tell one from the other (`Matcher.LooksAtNames`).

## Main results

* `Matcher.LooksAtNames.eval_eq` — which matchers cannot tell types of one name from each other.
* `Pipeline.outcome_named_or_not` — what giving the name of a class changes, and when it changes nothing.
* `Pipeline.outcome_names_differ` — it makes a difference to rules that look at more.
-/

namespace AdviceWeaver

open Act

variable {ε : Type} {ops : LoaderOps ε} {fits : ε → Prop} {s s' : Session ε} {p : Pipeline}
  {r r' : TransformRequest} {l : LoaderDescription} {c : ClassFile} {d t : TypeDescription}

/-! ### Matchers of names -/

namespace Matcher

/-- The matcher looks at nothing but the name of its target. -/
def LooksAtNames : {k : Kind} → Matcher k → Prop
  | _, .constant _ => True
  | _, .not m => m.LooksAtNames
  | _, .and m n => m.LooksAtNames ∧ n.LooksAtNames
  | _, .or m n => m.LooksAtNames ∧ n.LooksAtNames
  | _, .name _ _ => True
  | k, .custom _ judge => ∀ t u : Target k, t.name = u.name → judge t = judge u
  | _, .inPackage _ => True
  | _, _ => False

/-- **A matcher that looks at names** cannot tell targets of one name from each other. -/
theorem LooksAtNames.eval_eq {k : Kind} {m : Matcher k} (hm : m.LooksAtNames) {t u : Target k}
    (h : t.name = u.name) : m.eval ops t = m.eval ops u := by
  induction m with
  | constant value => rfl
  | not m ih =>
    show (m.eval ops t >>= _) = (m.eval ops u >>= _)
    rw [ih hm h]
  | and m n ihm ihn =>
    show (m.eval ops t >>= _) = (m.eval ops u >>= _)
    rw [ihm hm.1 h, ihn hm.2 h]
  | or m n ihm ihn =>
    show (m.eval ops t >>= _) = (m.eval ops u >>= _)
    rw [ihm hm.1 h, ihn hm.2 h]
  | name test text =>
    show pure (Except.ok (test.holds t.name text)) = pure (Except.ok (test.holds u.name text))
    rw [h]
  | custom label judge => exact congrArg accept (hm t u h)
  | inPackage package =>
    show pure (Except.ok (Text.startsWith t.name _)) = pure (Except.ok (Text.startsWith u.name _))
    rw [h]
  | _ => exact hm.elim

/-- Loaders are described alike in all sessions. -/
theorem agreesOrFails_loader_eq (m : Matcher .loader) (l : LoaderDescription) :
    m.agreesOrFails ops s l = m.agreesOrFails ops s' l := by
  obtain ⟨v, hv⟩ : ∃ v, Settles (fun _ : Session ε => True) (m.eval ops l) v :=
    m.exists_settles_eval_loader (fun _ _ _ => trivial) l
  have hverdict (s : Session ε) : m.verdict ops s l = v := hv.run_eq trivial
  simp only [agreesOrFails, hverdict]

/-- What looks at names sees all of a type in the bare type of its name. -/
theorem LooksAtNames.agreesOrFails_eq {m : Matcher .type} (hm : m.LooksAtNames)
    (t : TypeDescription) :
    m.agreesOrFails ops s (TypeDescription.ofName t.name) = m.agreesOrFails ops s' t := by
  obtain ⟨v, hv⟩ : ∃ v, ∀ s : Session ε, Settles s.SameButJournal
      (m.eval ops (TypeDescription.ofName t.name)) v :=
    m.exists_settles_eval_unbound (.ofName t.name) (.inl rfl)
  have hbare (s : Session ε) : m.verdict ops s (TypeDescription.ofName t.name) = v :=
    (hv s).run_eq ⟨s.journal, rfl⟩
  have heval : m.eval ops (TypeDescription.ofName t.name) = m.eval ops t := hm.eval_eq rfl
  have hfull : m.verdict ops s' t = v := by
    rw [← hbare s']
    exact congrArg (fun a => (a.run s').1) heval.symm
  simp only [agreesOrFails, hbare, hfull]

end Matcher

namespace IgnoreRules

variable {rules : IgnoreRules}

/-- Rules that look at names ignore a type exactly if they ignore its bare name. -/
theorem ignores_ofName (h : rules.types.LooksAtNames) (t : TypeDescription) :
    rules.ignores ops s (.ofName t.name) l = rules.ignores ops s' t l := by
  have htypes : rules.types.agreesOrFails ops s (TypeDescription.ofName t.name)
      = rules.types.agreesOrFails ops s' t := h.agreesOrFails_eq t
  have hloaders : rules.loaders.agreesOrFails ops s l = rules.loaders.agreesOrFails ops s' l :=
    rules.loaders.agreesOrFails_loader_eq l
  rw [ignores, ignores, htypes, hloaders]

/-- Rules look at names still if more names are ignored. -/
theorem looksAtNames_foldl (h : rules.types.LooksAtNames) (test : NameTest) (texts : List String) :
    (texts.foldl (fun rules text => rules.ignoreType (.name test text)) rules).types.LooksAtNames := by
  induction texts generalizing rules with
  | nil => exact h
  | cons text rest ih => exact ih ⟨h, trivial⟩

/-- The rules in force unless others are given look at names. Hook classes that join them do not change
that. -/
theorem looksAtNames_default : IgnoreRules.default.types.LooksAtNames := by
  refine looksAtNames_foldl (looksAtNames_foldl ?_ .startsWith _) .contains _
  exact trivial

end IgnoreRules

/-! ### Outcomes -/

namespace Pipeline

/-- What comes of a request: the answer, and the records that are left. -/
def outcome (ops : LoaderOps ε) (p : Pipeline) (s : Session ε) (r : TransformRequest) :
    Except Panic (Option Bytes) × Array (List String) :=
  (((p.transform ops r).run s).1, ((p.transform ops r).run s).2.records)

/-- The pipeline without ignore rules. -/
def unruled (p : Pipeline) : Pipeline :=
  { p with ignore := .empty }

theorem neverPanic_unruled (p : Pipeline) : p.unruled.ignore.NeverPanic ops fits :=
  ⟨fun _ _ => ⟨_, rfl⟩, fun _ _ => ⟨_, rfl⟩⟩

/-- A pipeline without ignore rules ignores nothing. -/
theorem ignores_unruled (p : Pipeline) : p.unruled.ignores ops s r l t = false := by
  unfold ignores
  cases r.className with
  | none => rfl
  | some name => rfl

variable {plan : WeavePlan} {out : Bytes} {p' : Pipeline} {out? out?' : Option Bytes}
  {s₁ s₂ : Session ε}

/-- Behind the ignore rules, the name that the host gives does not matter. -/
theorem Weaves.unruled (h : p.Weaves ops s r l c t plan out) (className : Option String) :
    p.unruled.Weaves ops s { r with className } l c t plan out :=
  ⟨h.read, h.described, p.ignores_unruled, h.tight, h.hooks, h.planned, h.woven⟩

/-- A class that is not ignored is woven as without ignore rules. -/
theorem Weaves.of_unruled {className : Option String}
    (h : p.unruled.Weaves ops s { r with className } l c t plan out)
    (hkept : p.ignores ops s r l t = false) : p.Weaves ops s r l c t plan out :=
  ⟨h.read, h.described, hkept, h.tight, h.hooks, h.planned, h.woven⟩

/-- How a request ends is told by how its class is woven. -/
theorem Ends.outcome_eq (h : p.Ends ops fits s r l out? s₁) (h' : p'.Ends ops fits s r' l out?' s₂)
    (hrecord : p.record = p'.record)
    (hweaves : ∀ c t plan out, p.Weaves ops s r l c t plan out
      ↔ p'.Weaves ops s r' l c t plan out) : out? = out?' ∧ s₁.records = s₂.records := by
  obtain ⟨-, ⟨c, t, plan, out, hwoven, rfl, hrecords⟩ | ⟨hnot, rfl, hrecords⟩⟩ := h
  · obtain ⟨-, ⟨c', t', plan', out', hwoven', rfl, hrecords'⟩ | ⟨hnot', -, -⟩⟩ := h'
    · obtain ⟨rfl, rfl, rfl, rfl⟩ := hwoven'.unique ((hweaves _ _ _ _).1 hwoven)
      rw [hrecords, hrecords', hrecord]
      exact ⟨rfl, rfl⟩
    · exact absurd ((hweaves _ _ _ _).1 hwoven) (hnot' _ _ _ _)
  · obtain ⟨-, ⟨c', t', plan', out', hwoven', -, -⟩ | ⟨-, rfl, hrecords'⟩⟩ := h'
    · exact absurd ((hweaves _ _ _ _).2 hwoven') (hnot _ _ _ _)
    · exact ⟨rfl, hrecords.trans hrecords'.symm⟩

/-- Nothing comes of a class that is not woven. -/
theorem Ends.eq_none (h : p.Ends ops fits s r l out? s₁)
    (hnot : ∀ c t plan out, ¬ p.Weaves ops s r l c t plan out) :
    out? = none ∧ s₁.records = s.records := by
  obtain ⟨-, ⟨c, t, plan, out, hwoven, -, -⟩ | ⟨-, hout, hrecords⟩⟩ := h
  · exact absurd hwoven (hnot c t plan out)
  · exact ⟨hout, hrecords⟩

section Outcomes

variable (hops : ops.Reliable fits) (hworld : fits s.world)
include hops hworld

/-- Without ignore rules, a request comes to the same whatever name the host gives. -/
theorem exists_outcome_unruled (p : Pipeline) (r : TransformRequest) :
    ∃ out? records, ∀ className,
      p.unruled.outcome ops s { r with className } = (.ok out?, records) := by
  obtain ⟨l, hl, out?, s₁, -, hends⟩ := exists_run_transform hops hworld p.neverPanic_unruled r
  refine ⟨out?, s₁.records, fun className => ?_⟩
  obtain ⟨l', hl', out?', s₂, hrun', hends'⟩ :=
    exists_run_transform hops hworld p.neverPanic_unruled { r with className }
  obtain rfl : l = l' := Except.ok.inj (hl.symm.trans hl')
  obtain ⟨rfl, hrecords⟩ := hends.outcome_eq hends' rfl fun c t plan out =>
    ⟨fun h => h.unruled className, fun h => h.unruled r.className⟩
  rw [outcome, hrun', hrecords]

/-- **A request comes to nothing** if its class is ignored, and else to the same as without ignore
rules. -/
theorem outcome_eq_ite (hignore : p.ignore.NeverPanic ops fits)
    (hl : ((r.loaderDescription ops).run s).1 = .ok l) (hread : ClassFile.read r.bytes = .ok c)
    (hd : TypeDescription.ofClassFile c = .ok d) :
    p.outcome ops s r = if p.ignores ops s r l { d with pool := some s.pools.size }
      then (.ok none, s.records) else p.unruled.outcome ops s r := by
  obtain ⟨l₁, hl₁, out?, s₁, hrun, hends⟩ := exists_run_transform hops hworld hignore r
  obtain ⟨l₂, hl₂, out?', s₂, hrun', hends'⟩ :=
    exists_run_transform hops hworld p.neverPanic_unruled r
  obtain rfl : l = l₁ := Except.ok.inj (hl.symm.trans hl₁)
  obtain rfl : l = l₂ := Except.ok.inj (hl.symm.trans hl₂)
  have hclass {t : TypeDescription} {plan : WeavePlan} {out : Bytes} {c' : ClassFile} {p' : Pipeline}
      (h : p'.Weaves ops s r l c' t plan out) : t = { d with pool := some s.pools.size } :=
    (h.class_eq hread ⟨d, hd, rfl⟩).2
  rw [outcome, outcome, hrun, hrun']
  split
  next hhit =>
    obtain ⟨rfl, hrecords⟩ := hends.eq_none fun c' t plan out hwoven => by
      obtain rfl := hclass hwoven
      exact absurd (hwoven.kept.symm.trans hhit) Bool.noConfusion
    rw [hrecords]
  next hkept =>
    obtain ⟨rfl, hrecords⟩ := hends.outcome_eq hends' rfl fun c' t plan out =>
      ⟨fun h => h.unruled r.className, fun h => h.of_unruled (by
        rw [hclass h]
        exact Bool.eq_false_iff.2 hkept)⟩
    rw [hrecords]

/-- A class that cannot be described is left alone. -/
theorem outcome_of_not_described (hignore : p.ignore.NeverPanic ops fits)
    (hread : ClassFile.read r.bytes = .ok c) (hd : ∀ d, TypeDescription.ofClassFile c ≠ .ok d) :
    p.outcome ops s r = (.ok none, s.records) := by
  obtain ⟨l, -, out?, s₁, hrun, hends⟩ := exists_run_transform hops hworld hignore r
  obtain ⟨rfl, hrecords⟩ := hends.eq_none fun c' t plan out hwoven => by
    obtain rfl : c = c' := Except.ok.inj (hread.symm.trans hwoven.read)
    obtain ⟨d, hdescribed, -⟩ := hwoven.described
    exact absurd hdescribed (hd d)
  rw [outcome, hrun, hrecords]

/-- The ignore rules settle what they are asked, whether by the name of a class or by its description. -/
theorem run_covers_eq (hignore : p.ignore.NeverPanic ops fits) (r : TransformRequest)
    (name : String) (l : LoaderDescription) (d : TypeDescription) :
    ((p.ignore.coversName ops (binaryName name) l).run s).1
        = .ok (p.ignore.ignores ops s (.ofName (binaryName name)) l)
      ∧ ((p.ignore.covers ops { d with pool := some s.pools.size } l).run (r.visit s)).1
        = .ok (p.ignore.ignores ops (r.visit s) { d with pool := some s.pools.size } l) := by
  have hs : s.Coherent ops fits none s.pools.size s.records := .of_world hworld
  have hvisit := hs.visit r
  exact ⟨(IgnoreRules.settles_covers hops hignore hs (.inl rfl) l).run_eq hs,
    (IgnoreRules.settles_covers hops hignore hvisit (.inr ⟨_, rfl, rfl⟩) l).run_eq hvisit⟩

end Outcomes

/-- A class is described under its own name. -/
theorem name_of_ofClassFile {name : String} (hname : c.className = .ok name)
    (hd : TypeDescription.ofClassFile c = .ok d) : d.name = binaryName name := by
  unfold TypeDescription.ofClassFile at hd
  simp only [except_bind_eq_ok, except_pure_eq_ok, hname] at hd
  obtain ⟨_, heq, _, -, _, -, _, -, _, -, rfl⟩ := hd
  rw [Except.ok.inj heq]

/-- **Giving the name of a class** changes nothing but what the ignore rules are asked: about a bare type
of that name, or else about the type in the class file. A request comes to nothing if they hit what they
are asked about, and else to what it comes to without ignore rules, whatever name is given. So both
requests come to the same if the answers agree, as they do if the rules for types look at names. -/
theorem outcome_named_or_not (hops : ops.Reliable fits) (p : Pipeline)
    (hignore : p.ignore.NeverPanic ops fits) (s : Session ε) (hworld : fits s.world)
    (r : TransformRequest) {name : String} (hread : ClassFile.read r.bytes = .ok c)
    (hname : c.className = .ok name) :
    ∃ (l : LoaderDescription) (hit hit' : Bool) (out? : Option Bytes)
      (records : Array (List String)),
      ((r.loaderDescription ops).run s).1 = .ok l
      ∧ ((p.ignore.coversName ops (binaryName name) l).run s).1 = .ok hit
      ∧ (∀ d, TypeDescription.ofClassFile c = .ok d →
        ((p.ignore.covers ops { d with pool := some s.pools.size } l).run (r.visit s)).1 = .ok hit')
      ∧ (∀ className, p.unruled.outcome ops s { r with className } = (.ok out?, records))
      ∧ p.outcome ops s { r with className := some name }
        = (if hit then (.ok none, s.records) else (.ok out?, records))
      ∧ p.outcome ops s { r with className := none }
        = (if hit' then (.ok none, s.records) else (.ok out?, records))
      ∧ (hit = hit' → p.outcome ops s { r with className := some name }
        = p.outcome ops s { r with className := none })
      ∧ (p.ignore.types.LooksAtNames → p.outcome ops s { r with className := some name }
        = p.outcome ops s { r with className := none }) := by
  obtain ⟨l, hl, -⟩ := exists_run_transform hops hworld hignore r
  obtain ⟨out?, records, hunruled⟩ := exists_outcome_unruled hops hworld p r
  cases hd : TypeDescription.ofClassFile c with
  | error e =>
    -- Nothing can come of the class, so it does not matter what the ignore rules answer.
    have hnot : ∀ d, TypeDescription.ofClassFile c ≠ .ok d := fun d h => by
      rw [hd] at h
      cases h
    have hnone (className : Option String) :
        p.outcome ops s { r with className } = (.ok none, s.records) :=
      outcome_of_not_described hops hworld hignore hread hnot
    have hnone' := outcome_of_not_described (r := r) hops hworld p.neverPanic_unruled hread hnot
    obtain ⟨hout, hrecords⟩ := Prod.mk.inj ((hunruled r.className).symm.trans hnone')
    obtain rfl := Except.ok.inj hout
    subst hrecords
    refine ⟨l, _, false, none, s.records, hl,
      (run_covers_eq hops hworld hignore r name l (.ofName name)).1, nofun, hunruled, ?_,
      hnone none, fun _ => (hnone _).trans (hnone none).symm,
      fun _ => (hnone _).trans (hnone none).symm⟩
    rw [ite_self]
    exact hnone (some name)
  | ok d =>
    obtain ⟨hnamed, hdescribed⟩ := run_covers_eq hops hworld hignore r name l d
    have hite (className : Option String) : p.outcome ops s { r with className }
        = if p.ignores ops s { r with className } l { d with pool := some s.pools.size }
          then (.ok none, s.records) else (.ok out?, records) := by
      rw [← hunruled className]
      exact outcome_eq_ite hops hworld hignore hl hread hd
    have hagree (h : p.ignore.ignores ops s (.ofName (binaryName name)) l
        = p.ignore.ignores ops (r.visit s) { d with pool := some s.pools.size } l) :
        p.outcome ops s { r with className := some name }
          = p.outcome ops s { r with className := none } := by
      rw [hite (some name), hite none]
      exact congrArg (fun hit : Bool => if hit then _ else _) h
    refine ⟨l, _, _, out?, records, hl, hnamed, fun d' hd' => ?_, hunruled, hite (some name),
      hite none, hagree, fun hnames => hagree ?_⟩
    · obtain rfl := Except.ok.inj hd'
      exact hdescribed
    · rw [← name_of_ofClassFile hname hd]
      exact IgnoreRules.ignores_ofName hnames { d with pool := some s.pools.size }

/-! ### A sample -/

/-- A pipeline that has a hook called in all methods, and its ignore rules. -/
def eager (ignore : IgnoreRules) : Pipeline where
  record := 0
  ignore
  rules := [⟨"sample", .constant true, .constant true, .constant true, ⟨"H", .memory []⟩, true, true⟩]

/-- A session with one record, in which there is nothing yet. -/
def recordingSession : Session MemoryHost :=
  ⟨.empty, #[], #[[]], .new #[]⟩

/-- The request for an idle class, with or without its name. -/
def idleRequest (className : Option String) : TransformRequest :=
  ⟨className, none, false, ClassFile.idle⟩

/-- The idle class is read, and its name is `A`. -/
theorem exists_read_idle :
    ∃ c, ClassFile.read ClassFile.idle = .ok c ∧ c.className = .ok "A" := by
  have hname : (do (← ClassFile.read ClassFile.idle).className) = .ok "A" := by decide +kernel
  exact except_bind_eq_ok.1 hname

/-- Whether something came of a request, and these records are left. -/
def comesTo (records : Array (List String)) :
    Except Panic (Option Bytes) × Array (List String) → Bool
  | (.ok (some _), left) => left = records
  | _ => false

/-- A check for an answer and records that succeeded tells both. -/
theorem exists_of_comesTo {records : Array (List String)}
    {o : Except Panic (Option Bytes) × Array (List String)} (h : comesTo records o = true) :
    ∃ out, o = (.ok (some out), records) := by
  unfold comesTo at h
  split at h
  case h_1 out left =>
    obtain rfl := of_decide_eq_true h
    exact ⟨out, rfl⟩
  case h_2 => cases h

/-- By the default ignore rules, an idle class is woven and recorded whether its name is given or not. -/
theorem outcome_named_or_not_sample :
    ∃ out, (eager .default).outcome MemoryHost.loaderOps recordingSession (idleRequest (some "A"))
        = (.ok (some out), #[["A"]])
      ∧ (eager .default).outcome MemoryHost.loaderOps recordingSession (idleRequest none)
        = (.ok (some out), #[["A"]]) := by
  have hcheck : comesTo #[["A"]] ((eager .default).outcome MemoryHost.loaderOps recordingSession
      (idleRequest (some "A"))) = true := by
    decide +kernel
  obtain ⟨out, hout⟩ := exists_of_comesTo hcheck
  obtain ⟨c, hread, hname⟩ := exists_read_idle
  obtain ⟨-, -, -, -, -, -, -, -, -, -, -, -, hnames⟩ := outcome_named_or_not
    (MemoryHost.reliable_loaderOps fun h (hloaders : h.loaders = #[]) => hloaders) (eager .default)
    IgnoreRules.calm_default.neverPanic recordingSession rfl (idleRequest none) hread hname
  exact ⟨out, hout, (hnames IgnoreRules.looksAtNames_default).symm.trans hout⟩

/-- Rules that ignore the classes that have methods. -/
def wary : IgnoreRules :=
  IgnoreRules.empty.ignoreType (.declaresMethod (.constant true))

/-- The rules that ignore classes with methods do not panic. -/
theorem neverPanic_wary : wary.NeverPanic ops fits := by
  refine ⟨fun _ _ => ⟨_, rfl⟩, fun {s} t _ => ?_⟩
  obtain ⟨name, superClass, interfaces, modifiers, annotations, methods, pool⟩ := t
  cases methods with
  | nil => exact ⟨_, rfl⟩
  | cons m rest => exact ⟨_, rfl⟩

/-- **Giving the name of a class may change what comes of it:** of a bare type, no methods are known. -/
theorem outcome_names_differ :
    (wary.NeverPanic MemoryHost.loaderOps fun _ => True)
      ∧ (∃ c, ClassFile.read ClassFile.idle = .ok c ∧ c.className = .ok "A")
      ∧ (∃ out, (eager wary).outcome MemoryHost.loaderOps recordingSession (idleRequest (some "A"))
        = (.ok (some out), #[["A"]]))
      ∧ (eager wary).outcome MemoryHost.loaderOps recordingSession (idleRequest none)
        = (.ok none, #[[]]) := by
  have hcheck : comesTo #[["A"]] ((eager wary).outcome MemoryHost.loaderOps recordingSession
      (idleRequest (some "A"))) = true := by
    decide +kernel
  refine ⟨neverPanic_wary, exists_read_idle, exists_of_comesTo hcheck, ?_⟩
  decide +kernel

end Pipeline

end AdviceWeaver

import AdviceWeaver.Proofs.Agent.Activation
import AdviceWeaver.Proofs.Pipeline.Hits
import AdviceWeaver.Proofs.Weaving.FreshConstants

/-!
# Woven calls link

That a hook class has a method to call is found out once, when its module is compiled, and is kept as
two flags of a rule. Everything behind that trusts the flags: the plan, the constants, which rules and
methods share, and the calls in the bodies. Here it is followed from one end to the other: each call in
a woven class leads to a static method that the hook class of a rule has (`Rule.Offers`), and each rule
that hits a method has its calls there (`MethodInfo.Linked`).

## Main results

* `PipelineBuilder.MadeOf.rules` — the rules of a builder are those of modules that were compiled.
* `Pipeline.calls_link` — the calls in a woven class are those of the rules that hit its methods.
* `Pipeline.calls_dangle` — not so if the pool of the class has a slot too many.
-/

namespace AdviceWeaver

open Act

variable {ε : Type} {ops : LoaderOps ε} {s s' : Session ε} {tracer : Tracer} {m : Module}
  {b b' : PipelineBuilder} {rule : Rule} {modules : List Module} {name : String}

/-! ### What hook classes offer -/

namespace Rule

/-- The hook class of the rule, as its own locator finds it, has a static method of this name without
parameters and result. -/
def Offers (rule : Rule) (name : String) : Prop :=
  ∃ bytes c m, rule.hook.locator.locate rule.hook.internal = .ok (some bytes)
    ∧ ClassFile.read bytes = .ok c ∧ m ∈ c.methods ∧ c.IsHook name m

/-- A module was compiled to the rule, and the flags of the rule say what its hook class offers. -/
structure ComesFrom (rule : Rule) (m : Module) : Prop where
  compile : Rule.compile m = .ok rule
  hook : rule.hook = m.hook
  enter : rule.enter = true ↔ rule.Offers Hook.enterName
  exit : rule.exit = true ↔ rule.Offers Hook.exitName
  active : rule.enter = true ∨ rule.exit = true

end Rule

/-- A scan finds what is there. -/
theorem ClassFile.Declares.eq_true_iff {c : ClassFile} {found : Bool} (h : c.Declares name found) :
    found = true ↔ ∃ m ∈ c.methods, c.IsHook name m := by
  cases found with
  | true =>
    obtain ⟨before, m, after, hmethods, -, hhook⟩ := h
    refine ⟨fun _ => ⟨m, ?_, hhook⟩, fun _ => rfl⟩
    rw [hmethods]
    exact List.mem_append_right _ List.mem_cons_self
  | false =>
    refine ⟨nofun, fun ⟨m, hm, hhook⟩ => ?_⟩
    rcases h m hm with hstatic | ⟨other, hother, hne⟩ | ⟨-, other, hother, hne⟩
    · exact hstatic.symm.trans hhook.static
    · exact absurd (Except.ok.inj (hother.symm.trans hhook.name)) hne
    · exact absurd (Except.ok.inj (hother.symm.trans hhook.descriptor)) hne

/-- **Compiling a module** finds out what its hook class offers. -/
theorem Rule.comesFrom_of_compile (h : Rule.compile m = .ok rule) : rule.ComesFrom m := by
  obtain ⟨⟨bytes, c, hlocate, hread, henter, hexit⟩, hactive, hown⟩ := Rule.compile_eq_ok_iff.1 h
  have hhook : rule.hook = m.hook := by rw [hown]
  have hoffers {name : String} {found : Bool} (hdeclares : c.Declares name found) :
      found = true ↔ rule.Offers name := by
    rw [hdeclares.eq_true_iff]
    constructor
    · rintro ⟨method, hmethod, hhook'⟩
      exact ⟨bytes, c, method, hhook ▸ hlocate, hread, hmethod, hhook'⟩
    · rintro ⟨bytes', c', method, hlocate', hread', hmethod, hhook'⟩
      rw [hhook, hlocate] at hlocate'
      cases hlocate'
      rw [hread] at hread'
      cases hread'
      exact ⟨method, hmethod, hhook'⟩
  exact ⟨h, hhook, hoffers henter, hoffers hexit, hactive⟩

/-! ### Rules of a builder -/

namespace PipelineBuilder

/-- Modules were applied to a new builder, which leaves it as `b`. Its ignore rules may have been replaced
at any time. -/
inductive MadeOf : List Module → PipelineBuilder → Prop
  | new : MadeOf [] .new
  | withIgnoreRules {modules : List Module} {b : PipelineBuilder} (rules : IgnoreRules) :
      MadeOf modules b → MadeOf modules (b.withIgnoreRules rules)
  | apply {modules : List Module} {b b' : PipelineBuilder} {m : Module} {tracer : Tracer} {ε : Type}
      {s s' : Session ε} : MadeOf modules b → (b.apply m tracer).run s = (.ok b', s') →
      MadeOf (modules ++ [m]) b'

/-- A module adds its rule or none. -/
theorem rules_of_run_apply (hrun : (b.apply m tracer).run s = (.ok b', s')) :
    b'.rules = b.rules ∨ ∃ rule, rule.ComesFrom m ∧ b'.rules = b.rules ++ [rule] := by
  rw [apply, run_bind_ok (run_log _ _ _), run_bind_ok run_prepare] at hrun
  cases hrule : m.rule tracer with
  | error e =>
    rw [hrule] at hrun
    cases hrun
    exact .inl rfl
  | ok rule =>
    rw [hrule] at hrun
    cases hrun
    rw [Module.rule] at hrule
    split at hrule
    · exact .inr ⟨rule, Rule.comesFrom_of_compile hrule, rfl⟩
    · cases hrule
    · cases hrule

/-- **The rules of a builder** are those of modules that were compiled. -/
theorem MadeOf.rules (h : MadeOf modules b) : ∀ rule ∈ b.rules, ∃ m ∈ modules, rule.ComesFrom m := by
  induction h with
  | new => exact nofun
  | withIgnoreRules rules _ ih => exact ih
  | @apply modules b b' m _ _ _ _ _ hrun ih =>
    have hold : ∀ rule ∈ b.rules, ∃ m' ∈ modules ++ [m], rule.ComesFrom m' := by
      intro rule hrule
      obtain ⟨m', hm', hfrom⟩ := ih rule hrule
      exact ⟨m', List.mem_append_left _ hm', hfrom⟩
    rcases rules_of_run_apply hrun with hrules | ⟨rule, hfrom, hrules⟩
    · rwa [hrules]
    · rw [hrules, List.forall_mem_append, List.forall_mem_singleton]
      exact ⟨hold, m, by simp, hfrom⟩

/-- A pipeline has the rules of its builder. -/
theorem rules_of_run_build {p : Pipeline} (hrun : (b.build).run s = (.ok p, s')) :
    p.rules = b.rules := by
  cases hrun
  rfl

end PipelineBuilder

/-! ### Linked methods -/

/-- The body `body'` is `body` with the calls of some rules, each of which leads to a method that the hook
class of its rule has. -/
structure CodeOf.Linked (pool : ConstantPool) (rules : List Rule) (calls : HookRefs)
    (body body' : Code) : Prop where
  /-- The new instructions are the old ones, which lead where they land, and the calls: some at the start,
  and some in front of every return. -/
  code : ∃ (pairs : List Replacement) (nops : Nat), Body.decode body.code = .ok (pairs.map Prod.fst)
    ∧ (∀ pair ∈ pairs, pair.2.skeleton = pair.1.skeleton)
    ∧ Body.decode body'.code
      = .ok (calls.enter.map Instruction.call ++ List.replicate nops Instruction.nop
          ++ (pairs.map Prod.snd).flatMap fun i =>
            if i.isReturn then calls.exit.map Instruction.call ++ [i] else [i])
  /-- There is one call at the start for each rule that wants one, in order, and no other. -/
  enter : List.Forall₂
    (fun rule index => rule.Offers Hook.enterName
      ∧ pool.Calls rule.hook.internal Hook.enterName index)
    (rules.filter Rule.enter) calls.enter
  /-- There is one call in front of a return for each rule that wants one, in reverse order, and no
  other. -/
  exit : List.Forall₂
    (fun rule index => rule.Offers Hook.exitName ∧ pool.Calls rule.hook.internal Hook.exitName index)
    (rules.reverse.filter Rule.exit) calls.exit

/-- The method `m'` is `m` with the calls of the rules that hit it, if any does and it has a body. -/
structure MethodInfo.Linked (pool : ConstantPool) (rules : List Rule) (m m' : MethodInfo) : Prop where
  same : m.code? = none ∨ rules = [] → m.Same m'
  body {a : Attribute} {body : Code} : m.code? = some (a, body) → rules ≠ [] →
    ∃ a' body' calls, m'.code? = some (a', body') ∧ body.Linked pool rules calls body'

/-- What is recoded with the hooks of rules has their calls. -/
theorem MethodInfo.Recoded.linked {pool : ConstantPool} {rules : List Rule} {m m' : MethodInfo}
    (hrules : ∀ rule ∈ rules, ∃ m, rule.ComesFrom m)
    (h : m.Recoded pool (rules.map Rule.hookCall) m') : m.Linked pool rules m' where
  same hnone := by
    refine h.same (hnone.imp_right ?_)
    rintro rfl
    rfl
  body {a body} hcode hne := by
    have hactive : (rules.map Rule.hookCall).any Hook.isActive = true := by
      obtain ⟨rule, hrule⟩ := List.exists_mem_of_ne_nil rules hne
      obtain ⟨_, hfrom⟩ := hrules rule hrule
      refine List.any_eq_true.2 ⟨_, List.mem_map_of_mem hrule, ?_⟩
      exact Bool.or_eq_true_iff.2 hfrom.active
    obtain ⟨a', body', calls, pairs, hcode', hmeets, hreframed⟩ := h.body hcode hactive
    -- The calls are known hook by hook, and the hooks are those of the rules, in order.
    have henter := hmeets.enter
    have hexit := hmeets.exit
    rw [List.filter_map, List.forall₂_map_left_iff] at henter
    rw [← List.map_reverse, List.filter_map, List.forall₂_map_left_iff] at hexit
    refine ⟨a', body', calls, hcode', ⟨pairs, _, hreframed.decode_old, fun _ => hreframed.skeleton,
      hreframed.decode_new⟩, ?_, ?_⟩
    · refine ((List.forall₂_and_left _ _).2 ⟨fun rule hrule => ?_, henter⟩).imp fun _ _ => id
      obtain ⟨hmem, hflag⟩ := List.mem_filter.1 hrule
      obtain ⟨_, hfrom⟩ := hrules rule hmem
      exact hfrom.enter.1 hflag
    · refine ((List.forall₂_and_left _ _).2 ⟨fun rule hrule => ?_, hexit⟩).imp fun _ _ => id
      obtain ⟨hmem, hflag⟩ := List.mem_filter.1 hrule
      obtain ⟨_, hfrom⟩ := hrules rule (List.mem_reverse.1 hmem)
      exact hfrom.exit.1 hflag

/-- Methods are described in order. -/
theorem TypeDescription.describeMethod_of_getElem? {c : ClassFile} {d : TypeDescription}
    (hd : ofClassFile c = .ok d) {index : Nat} {m : MethodDescription}
    (hm : d.methods[index]? = some m) :
    ∃ info, c.methods[index]? = some info ∧ describeMethod c d.name info = .ok m := by
  obtain ⟨className, -, hd⟩ := except_bind_eq_ok.1 hd
  obtain ⟨methods, hmethods, hd⟩ := except_bind_eq_ok.1 hd
  have hdescribed := mapM_eq_ok_iff.1 hmethods
  obtain ⟨_, -, hd⟩ := except_bind_eq_ok.1 hd
  obtain ⟨_, -, hd⟩ := except_bind_eq_ok.1 hd
  obtain ⟨_, -, hd⟩ := except_bind_eq_ok.1 hd
  cases hd
  obtain ⟨hlt, rfl⟩ := List.getElem?_eq_some_iff.1 hm
  have hlt' : index < c.methods.length := hdescribed.length_eq ▸ hlt
  exact ⟨c.methods[index], List.getElem?_eq_getElem hlt', hdescribed.get hlt' hlt⟩

namespace Pipeline

/-- **Every woven call links.** Modules were applied to a builder, and its pipeline weaves a class. Which
rules hit which methods of the class is what they answer in this very run. Each method of the woven class
has the calls of the rules that hit it, and no other new ones; each rule comes from a module whose hook
class has what is called. Every method body leaves room below `2 ^ 32` for the `2 ^ 28` octets that hooks
may add to it, and there is no slot too many in the pool: with one, the numbers of new constants start
over. -/
theorem calls_link {ε' : Type} {u u' : Session ε'} {p : Pipeline} {r : TransformRequest}
    {c : ClassFile} {out : Bytes} (hb : PipelineBuilder.MadeOf modules b)
    (hp : (b.build).run u = (.ok p, u')) (hread : ClassFile.read r.bytes = .ok c)
    (hslots : c.pool.slots.size ≤ 65535) (hsmall : ∀ m ∈ c.methods, m.Within 4026531840)
    (hrun : (p.transform ops r).run s = (.ok (some out), s')) :
    ∃ d hits s₁ c', TypeDescription.ofClassFile c = .ok d
      ∧ (p.hits ops r).run s = (.ok hits, s₁)
      ∧ (∀ hit ∈ hits, hit.1 ∈ p.rules ∧ ∃ info m, c.methods[hit.2]? = some info
        ∧ TypeDescription.describeMethod c d.name info = .ok m ∧ hasBody m = true)
      ∧ (∀ rule ∈ p.rules, ∃ m ∈ modules, rule.ComesFrom m)
      ∧ ClassFile.read out = .ok c' ∧ c'.methods.length = c.methods.length
      ∧ ∀ (index : Nat) (info info' : MethodInfo), c.methods[index]? = some info →
        c'.methods[index]? = some info' → info.Linked c'.pool (Hit.rulesAt hits index) info' := by
  obtain ⟨hits, s₁, hhits, c₁, d, hread₁, hd, hwoven⟩ := exists_run_transform_iff.1 ⟨s', hrun⟩
  obtain rfl := Except.ok.inj (hread.symm.trans hread₁)
  have hmem := mem_of_run_hits (except_bind_eq_ok.2 ⟨c, hread, hd⟩) hhits
  have hrules : ∀ rule ∈ p.rules, ∃ m ∈ modules, rule.ComesFrom m := by
    rw [PipelineBuilder.rules_of_run_build hp]
    exact hb.rules
  obtain ⟨c', hread', hrecoded⟩ := ClassFile.exists_recoded hread hslots
    (ClassFile.tellsLengths_of_within hread hsmall) hwoven
  refine ⟨d, hits, s₁, c', hd, hhits, fun hit hhit => ?_, hrules, hread', hrecoded.length_methods,
    fun index info info' hinfo hinfo' => ?_⟩
  · obtain ⟨hrule, m, hm, hbody⟩ := hmem hit hhit
    obtain ⟨info, hinfo, hdescribed⟩ := TypeDescription.describeMethod_of_getElem? hd hm
    exact ⟨hrule, info, m, hinfo, hdescribed, hbody⟩
  · have hmethod := hrecoded.recoded hinfo hinfo'
    rw [WeavePlan.hooksOf_addHits] at hmethod
    refine MethodInfo.Recoded.linked (fun rule hrule => ?_) hmethod
    obtain ⟨m, -, hfrom⟩ := hrules rule (hmem _ (Hit.mem_rulesAt.1 hrule)).1
    exact ⟨m, hfrom⟩

end Pipeline

/-! ### A sample -/

/-- A hook class `H` that wants to be called at both ends of a method body. -/
def roundHook : Bytes :=
  [0xCA, 0xFE, 0xBA, 0xBE, 0, 0, 0, 0x34, 0, 6]
    ++ [1, 0, 1, 0x48, 7, 0, 1, 1, 0, 13]
    ++ [0x6F, 0x6E, 0x4D, 0x65, 0x74, 0x68, 0x6F, 0x64, 0x45, 0x6E, 0x74, 0x65, 0x72]
    ++ [1, 0, 3, 0x28, 0x29, 0x56]
    ++ [1, 0, 12, 0x6F, 0x6E, 0x4D, 0x65, 0x74, 0x68, 0x6F, 0x64, 0x45, 0x78, 0x69, 0x74]
    ++ [0, 0x21, 0, 2, 0, 0, 0, 0, 0, 0, 0, 2, 0, 9, 0, 3, 0, 4, 0, 0, 0, 9, 0, 5, 0, 4, 0, 0, 0, 0]

/-- A module that has both hooks called in all methods of all classes. -/
def roundModule : Module := { Agent.sampleModule with hook := ⟨"H", .memory [("H", roundHook)]⟩ }

/-- The rule of this module. -/
def roundRule : Rule where
  advice := roundModule.name
  types := roundModule.types
  methods := roundModule.methods
  loaders := roundModule.loaders
  hook := roundModule.hook
  enter := true
  exit := true

/-- The module compiles to the rule with calls at both ends. -/
theorem compile_roundModule : Rule.compile roundModule = .ok roundRule := by
  have hflags : (Rule.compile roundModule).toOption.map (fun rule => (rule.enter, rule.exit))
      = some (true, true) := by
    decide +kernel
  cases hcompile : Rule.compile roundModule with
  | error e =>
    rw [hcompile] at hflags
    cases hflags
  | ok rule =>
    rw [hcompile] at hflags
    obtain ⟨henter, hexit⟩ := Prod.mk.inj (Option.some.inj hflags)
    obtain ⟨-, -, hown⟩ := Rule.compile_eq_ok_iff.1 hcompile
    rw [hown, henter, hexit]
    rfl

/-- A builder with this module. -/
def roundBuilder : PipelineBuilder :=
  ⟨IgnoreRules.default.ignoreHookClass "H", [roundRule]⟩

/-- The builder is made of the module: it joined, and its hook class is ignored. -/
theorem madeOf_roundBuilder : PipelineBuilder.MadeOf [roundModule] roundBuilder := by
  have hjoined : PipelineBuilder.new.joined roundModule ⟨.default, default⟩ = roundBuilder := by
    rw [PipelineBuilder.joined, Module.rule, compile_roundModule]
    rfl
  have hrun : (PipelineBuilder.new.apply roundModule ⟨.default, default⟩ : Act Unit _).run
      (.start ()) = _ := PipelineBuilder.run_apply _ rfl
  rw [hjoined] at hrun
  exact .apply .new hrun

/-- The pipeline of this builder. -/
def roundPipeline : Pipeline :=
  ⟨0, roundBuilder.ignore, roundBuilder.rules⟩

/-- What is seen of an idle class. -/
def idleType : TypeDescription :=
  ⟨"A", none, [], 0x21, [], [⟨"A", "m", "()V", 9, []⟩], none⟩

/-- The rule hits the method of an idle class. -/
theorem run_hits_round {bytes : Bytes} (hd : TypeDescription.read bytes = .ok idleType) :
    ∃ s', (roundPipeline.hits MemoryHost.loaderOps ⟨some "A", none, false, bytes⟩).run
      (.start (.new #[])) = (.ok [(roundRule, 0)], s') := by
  have hcalm : roundBuilder.ignore.Calm MemoryHost.loaderOps :=
    IgnoreRules.calm_default.ignoreName .equals "H"
  obtain ⟨hit, hcovers⟩ := hcalm.exists_covers
  obtain ⟨hrun, hignores⟩ :=
    hcovers (.start (.new #[])) (.ofName (binaryName "A")) .bootstrap
  have hkept : roundBuilder.ignore.ignores MemoryHost.loaderOps (.start (.new #[]))
      (.ofName (binaryName "A")) .bootstrap = false := by
    decide +kernel
  rw [← hignores, hkept] at hrun
  obtain ⟨s', hhits⟩ : ∃ s', (roundPipeline.hitType MemoryHost.loaderOps
      ⟨some "A", none, false, bytes⟩ .bootstrap idleType).run (.start (.new #[]))
        = (.ok [(roundRule, 0)], s') :=
    ⟨_, rfl⟩
  refine ⟨s', (run_bind_ok rfl).trans ((run_bind_ok hrun).trans ?_)⟩
  rw [hd]
  exact hhits

/-- The only hit makes the plan with one hook for the first method. -/
theorem addHits_round : WeavePlan.empty.addHits [(roundRule, 0)] = rounding := by
  decide +kernel

/-- The rule has an idle class woven. -/
theorem exists_run_transform_round {bytes out : Bytes} {c : ClassFile}
    (hread : ClassFile.read bytes = .ok c) (hd : TypeDescription.ofClassFile c = .ok idleType)
    (hwoven : weave bytes c rounding = .ok (some out)) :
    ∃ s', (roundPipeline.transform MemoryHost.loaderOps ⟨some "A", none, false, bytes⟩).run
      (.start (.new #[])) = (.ok (some out), s') := by
  obtain ⟨s₁, hhits⟩ := run_hits_round (except_bind_eq_ok.2 ⟨c, hread, hd⟩)
  rw [← addHits_round] at hwoven
  exact Pipeline.exists_run_transform_iff.2 ⟨_, s₁, hhits, c, idleType, hread, hd, hwoven⟩

/-- The method of an idle class has both calls of the rule that hits it. -/
theorem Pipeline.calls_link_sample :
    ∃ c out s' s₁ c' m m', PipelineBuilder.MadeOf [roundModule] roundBuilder
      ∧ (roundBuilder.build.run (.start ())).1 = .ok roundPipeline
      ∧ ClassFile.read ClassFile.idle = .ok c ∧ c.pool.slots.size ≤ 65535
      ∧ (∀ m ∈ c.methods, m.Within 4026531840)
      ∧ (roundPipeline.transform MemoryHost.loaderOps ⟨some "A", none, false, ClassFile.idle⟩).run
        (.start (.new #[])) = (.ok (some out), s')
      ∧ (roundPipeline.hits MemoryHost.loaderOps ⟨some "A", none, false, ClassFile.idle⟩).run
        (.start (.new #[])) = (.ok [(roundRule, 0)], s₁)
      ∧ ClassFile.read out = .ok c' ∧ c.methods[0]? = some m ∧ c'.methods[0]? = some m'
      ∧ m.code? ≠ none ∧ m.Linked c'.pool [roundRule] m' := by
  have hwoven : ClassFile.isWovenBy ClassFile.idle rounding = true := by
    decide +kernel
  obtain ⟨c, out, hread, hslots, hout⟩ := ClassFile.exists_of_isWovenBy hwoven
  have hd : TypeDescription.read ClassFile.idle = .ok idleType := by
    decide +kernel
  obtain ⟨c₁, hread₁, hd₁⟩ := except_bind_eq_ok.1 hd
  obtain rfl := Except.ok.inj (hread.symm.trans hread₁)
  obtain ⟨s', hrun⟩ := exists_run_transform_round hread hd₁ hout
  obtain ⟨s₁, hhits⟩ := run_hits_round hd
  have hsmall : ∀ m ∈ c.methods, m.Within 4026531840 :=
    fun m hm a body hcode =>
      Nat.le_trans (ClassFile.readFrom_of_code? hread hm hcode).extent_le (by decide)
  obtain ⟨u, hbuild⟩ : ∃ u, roundBuilder.build.run (.start ()) = (.ok roundPipeline, u) := ⟨_, rfl⟩
  obtain ⟨d, hits, s₂, c', -, hhits', hmem, -, hread', hlength, hlinked⟩ :=
    Pipeline.calls_link (r := ⟨some "A", none, false, ClassFile.idle⟩) madeOf_roundBuilder hbuild
      hread hslots hsmall hrun
  obtain ⟨hits_eq, -⟩ := Prod.mk.inj (hhits'.symm.trans hhits)
  obtain rfl := Except.ok.inj hits_eq
  obtain ⟨-, m, -, hm, -, -⟩ := hmem _ List.mem_cons_self
  obtain ⟨m', hm'⟩ : ∃ m', c'.methods[0]? = some m' := by
    refine ⟨_, List.getElem?_eq_getElem ?_⟩
    rw [hlength]
    exact (List.getElem?_eq_some_iff.1 hm).1
  have hcode : m.code? ≠ none := by
    have hcodes : (ClassFile.read ClassFile.idle).toOption.map
        (fun c => c.methods.all fun m => m.code?.isSome) = some true := by
      decide +kernel
    rw [hread] at hcodes
    have hall := List.all_eq_true.1 (Option.some.inj hcodes) m (List.mem_of_getElem? hm)
    exact Option.isSome_iff_ne_none.1 hall
  exact ⟨c, out, s', s₁, c', m, m', madeOf_roundBuilder, congrArg Prod.fst hbuild, hread, hslots,
    hsmall, hrun, hhits, hread', hm, hm', hcode, hlinked 0 m m' hm hm'⟩

/-! ### A pool with a slot too many -/

namespace ClassFile

/-- The constants in front of the empty texts are found in every such pool. -/
theorem get_padded {n : Nat} {index : UInt16} {k : Constant}
    (hk : (none :: (paddedConstants 0).map some)[index.toNat]? = some (some k)) :
    (padded n).pool.get index = .ok k := by
  refine ConstantPool.get_eq_ok_iff.2 ⟨?_, ?_⟩
  · rintro rfl
    cases hk
  have hslots : (padded n).pool.slots.toList = none :: (paddedConstants 0).map some
      ++ (List.replicate n (some (.utf8 "")) ++ [some (.long 0), none]) := by
    simp [padded, paddedConstants]
  obtain ⟨hlt, -⟩ := List.getElem?_eq_some_iff.1 hk
  rw [← Array.getElem?_toList, hslots, List.getElem?_append_left hlt, hk]

/-- An idle class is described, whatever else is in its pool. -/
theorem ofClassFile_padded {n : Nat} : TypeDescription.ofClassFile (padded n) = .ok idleType := by
  have htext {index : UInt16} {text : String}
      (hk : (none :: (paddedConstants 0).map some)[index.toNat]? = some (some (.utf8 text))) :
      (padded n).pool.getText index = .ok text :=
    ConstantPool.getText_eq_ok_iff.2 (get_padded hk)
  have hclass : (padded n).className = .ok "A" :=
    except_bind_eq_ok.2 ⟨_, get_padded rfl, htext rfl⟩
  have hname : binaryName "A" = "A" := by decide +kernel
  have hmethod : ∀ m ∈ (padded n).methods,
      TypeDescription.describeMethod (padded n) "A" m = .ok ⟨"A", "m", "()V", 9, []⟩ := by
    intro m hm
    obtain rfl := List.mem_singleton.1 hm
    exact except_bind_eq_ok.2 ⟨[], rfl, except_bind_eq_ok.2 ⟨_, htext rfl,
      except_bind_eq_ok.2 ⟨_, htext rfl, rfl⟩⟩⟩
  refine except_bind_eq_ok.2 ⟨_, hclass, except_bind_eq_ok.2 ⟨idleType.methods, ?_, ?_⟩⟩
  · rw [hname]
    exact mapM_eq_ok_iff.2 (.cons (hmethod _ List.mem_cons_self) .nil)
  · rw [hname]
    rfl

/-- No constant of the idle class stands for a call. -/
theorem not_calls_nine {hookClass name : String} {index : UInt16} :
    ¬ ConstantPool.Calls ⟨#[none] ++ ((paddedConstants 3).map some).toArray⟩ hookClass name index := by
  rintro ⟨owner, nameAndType, -, -, hget, -⟩
  have hmem := Array.mem_of_getElem? (ConstantPool.get_eq_ok_iff.1 hget).2
  simp [paddedConstants] at hmem

end ClassFile

/-- **A woven call may lead nowhere.** A class whose pool has a slot too many is woven although there is no
room for the constants of the rule that hits its method. No method can be called by what is written then:
it is no class file, or there is no reference to a method in its pool. -/
theorem Pipeline.calls_dangle :
    ∃ out s' s₁ m, PipelineBuilder.MadeOf [roundModule] roundBuilder
      ∧ (roundBuilder.build.run (.start ())).1 = .ok roundPipeline
      ∧ roundRule.Offers Hook.enterName ∧ roundRule.Offers Hook.exitName
      ∧ (roundPipeline.transform MemoryHost.loaderOps
        ⟨some "A", none, false, ClassFile.paddedBytes 65528⟩).run (.start (.new #[]))
          = (.ok (some out), s')
      ∧ (roundPipeline.hits MemoryHost.loaderOps
        ⟨some "A", none, false, ClassFile.paddedBytes 65528⟩).run (.start (.new #[]))
          = (.ok [(roundRule, 0)], s₁)
      ∧ (ClassFile.padded 65528).methods[0]? = some m ∧ m.code? ≠ none
      ∧ ¬ ∃ c' hookClass name index, ClassFile.read out = .ok c'
        ∧ c'.pool.Calls hookClass name index := by
  have hread : ClassFile.read (ClassFile.paddedBytes 65528) = .ok (ClassFile.padded 65528) :=
    ClassFile.read_paddedBytes (by decide)
  have hcount : (ClassFile.padded 65528).pool.count = 0 := by
    rw [ConstantPool.count, ClassFile.size_slots_padded]
    rfl
  have hd := ClassFile.ofClassFile_padded (n := 65528)
  obtain ⟨rest, hwoven⟩ := ClassFile.exists_weave_rounding hcount
  obtain ⟨s', hrun⟩ := exists_run_transform_round hread hd hwoven
  obtain ⟨s₁, hhits⟩ := run_hits_round (except_bind_eq_ok.2 ⟨_, hread, hd⟩)
  have hfrom := Rule.comesFrom_of_compile compile_roundModule
  refine ⟨_, s', s₁, _, madeOf_roundBuilder, rfl, hfrom.enter.1 rfl, hfrom.exit.1 rfl, hrun, hhits, rfl,
    Option.some_ne_none _, ?_⟩
  rintro ⟨c', hookClass, name, index, hread', hcalls⟩
  rw [ClassFile.pool_of_read hread' rfl ClassFile.takes_constantPool_nine] at hcalls
  exact ClassFile.not_calls_nine hcalls

end AdviceWeaver

import AdviceWeaver.Hosting.Host
import AdviceWeaver.Proofs.Matching.Answers
import AdviceWeaver.Proofs.Session.Agreement

/-!
# Loaders that are asked in different ways

Two ways of asking the loaders of a world agree if no question tells them apart (`LoaderOps.Agree`), or at
least none that transformers ask (`LoaderOps.AgreeInUse`). Then it makes no difference to transformers
either which of them is used: they do the same, and leave a good session. With one way of asking instead of
two, this says that transformers keep sessions good, whatever comes of them.

Which sessions are good has to be a matter of the world, as what transformers do to the journal, to pools
and to records is not restricted.

## Main results

* `Matcher.agree_eval` — a matcher asks no more than the loaders answer.
* `Pipeline.agree_transform`, `Transformer.agree_transformAll` — neither do transformers.
* `Transformer.transformAll_eq_foldlM` — transformers in a row are a fold over what they answer.
-/

namespace AdviceWeaver

open Act

variable {ε : Type} {good : Session ε → Prop} {ops ops' : LoaderOps ε}

/-- No question to a loader tells the two ways of asking apart. -/
structure LoaderOps.Agree (good : Session ε → Prop) (ops ops' : LoaderOps ε) : Prop where
  describe : ∀ l, Act.Agree good (ops.describe l) (ops'.describe l)
  parent : ∀ l, Act.Agree good (ops.parent l) (ops'.parent l)
  canLoad : ∀ l name, Act.Agree good (ops.canLoad l name) (ops'.canLoad l name)
  classFile : ∀ l name, Act.Agree good (ops.classFile l name) (ops'.classFile l name)
  release : ∀ l, Act.Agree good (ops.release l) (ops'.release l)
  load : ∀ e, Act.Agree good (ops.load e) (ops'.load e)
  extent : ops.extent = ops'.extent

/-- No question that transformers ask tells the two ways of asking apart. What is logged of a loader and
those above it counts as one question: loaders that are obtained meanwhile are given up meanwhile. -/
structure LoaderOps.AgreeInUse (good : Session ε → Prop) (ops ops' : LoaderOps ε) : Prop where
  describe : ∀ l, Act.Agree good (ops.describe l) (ops'.describe l)
  classFile : ∀ l name, Act.Agree good (ops.classFile l name) (ops'.classFile l name)
  logHierarchy : ∀ r loader, Act.Agree good (Pipeline.logLoaderHierarchy ops r loader)
    (Pipeline.logLoaderHierarchy ops' r loader)
  load : ∀ e, Act.Agree good (ops.load e) (ops'.load e)
  extent : ops.extent = ops'.extent

/-- Whether a session is good is a matter of its world. -/
def Session.IsWorldly (good : Session ε → Prop) : Prop :=
  ∀ s s' : Session ε, s'.world = s.world → good s → good s'

variable (hworld : Session.IsWorldly good)

section Session

include hworld

/-- A change that keeps the world is the same change on both sides. -/
theorem Session.IsWorldly.agree_modify {g : Session ε → Session ε}
    (h : ∀ s, (g s).world = s.world) :
    Act.Agree good (modify g : Act ε Unit) (modify g) :=
  fun s hs => ⟨rfl, hworld s _ (h s) hs⟩

theorem Session.IsWorldly.agree_note (n : Note) : Act.Agree good (note n : Act ε Unit) (note n) :=
  hworld.agree_modify fun _ => rfl

/-- Logging keeps the world, so the session stays good. -/
theorem Session.IsWorldly.safe_log (level : Level) (message : String)
    (fields : List (String × String)) : Safe good (log level message fields : Act ε Unit) :=
  fun s hs => ⟨(), _, rfl, hworld s _ rfl hs⟩

/-- What is logged is logged alike on both sides. -/
theorem Session.IsWorldly.agree_log (level : Level) (message : String)
    (fields : List (String × String)) :
    Act.Agree good (log level message fields : Act ε Unit) (log level message fields) :=
  (hworld.safe_log level message fields).concur.agree

/-- A description is remembered alike on both sides. -/
theorem Session.IsWorldly.agree_remember (id : PoolId) (name : String) (t : TypeDescription) :
    Act.Agree good (TypePool.remember id name t : Act ε Unit) (TypePool.remember id name t) :=
  hworld.agree_modify fun _ => rfl

/-- A name is recorded alike on both sides. -/
theorem Session.IsWorldly.agree_record (id : RecordId) (name : String) :
    Act.Agree good (record id name : Act ε Unit) (record id name) :=
  hworld.agree_modify fun _ => rfl

/-- A pool is opened alike on both sides. -/
theorem Session.IsWorldly.agree_newPool (source : TypeSource) :
    Act.Agree good (newPool source : Act ε PoolId) (newPool source) :=
  fun s hs => ⟨rfl, hworld s _ rfl hs⟩

end Session

/-! ### Loaders above one another -/

section Loaders

variable (hops : ops.Agree good ops')
include hworld hops

/-- What is logged of a loader and those above it is told apart by no answer, by induction on how far it
climbs. -/
theorem Pipeline.agree_logLoaders (r : Rule) (isParent : Bool) (depth : Nat) (loader : Option LoaderId) :
    Act.Agree good (logLoaders ops r isParent depth loader)
      (logLoaders ops' r isParent depth loader) := by
  have hrelease (isParent : Bool) (l : LoaderId) :
      Act.Agree good (if isParent then ops.release l else pure ())
        (if isParent then ops'.release l else pure ()) := by
    cases isParent with
    | false => exact agree_pure ()
    | true => exact hops.release l
  induction depth generalizing isParent loader with
  | zero =>
    cases loader with
    | none => exact hworld.agree_log _ _ _
    | some l => exact (hworld.agree_log _ _ _).bind fun _ => hrelease isParent l
  | succ depth ih =>
    cases loader with
    | none => exact hworld.agree_log _ _ _
    | some l =>
      refine (hops.canLoad l _).bind fun can => (hops.describe l).bind fun d => ?_
      refine (hworld.agree_log _ _ _).bind fun _ => (hops.parent l).bind fun above => ?_
      rcases above with e | above
      · exact (hworld.agree_log _ _ _).bind fun _ => hrelease isParent l
      · cases isParent with
        | false => exact ih true above
        | true => exact (hops.release l).bind fun _ => ih true above

/-- Transformers do not tell apart what no question does. -/
theorem LoaderOps.Agree.inUse : ops.AgreeInUse good ops' where
  describe := hops.describe
  classFile := hops.classFile
  logHierarchy r loader := (hworld.agree_log _ _ _).bind fun _ =>
    Pipeline.agree_logLoaders hworld hops r false _ loader
  load := hops.load
  extent := hops.extent

end Loaders

/-! ### Looking types up -/

section Lookup

variable (hops : ops.AgreeInUse good ops')
include hworld hops

/-- A pool that asks its source is told the same by loaders that agree. -/
theorem TypePool.agree_fetch (source : TypeSource) (name : String) :
    Act.Agree good (fetch ops source name) (fetch ops' source name) := by
  cases source with
  | described types count => exact agree_pure _
  | files answers count =>
    refine (hworld.agree_note _).bind fun _ => ?_
    cases answers (internalName name) <;> exact agree_pure _
  | loader l =>
    refine (hops.classFile l (internalName name)).bind fun found => ?_
    rcases found with e | _ | bytes <;> exact agree_pure _
  | bootstrap => exact agree_pure _

/-- The class file of a name, as it is asked for, becomes a description that is remembered. -/
theorem TypePool.agree_describe (id : PoolId) (name : String) :
    Act.Agree good (describe ops id name) (describe ops' id name) := by
  refine agree_get.bind fun s => ?_
  cases s.pools[id]? with
  | none => exact agree_pure _
  | some pool =>
    obtain ⟨source, cache⟩ := pool
    cases source with
    | described types count =>
      refine (hworld.agree_note _).bind fun _ => ?_
      cases types name <;> exact agree_pure _
    | _ =>
      dsimp only
      cases cache.lookup name with
      | some t => exact agree_pure _
      | none =>
        refine (agree_fetch hworld hops _ name).bind fun found => ?_
        rcases found with e | bytes
        · exact agree_pure _
        · dsimp only
          split
          · exact agree_pure _
          · exact (hworld.agree_remember _ _ _).bind fun _ => agree_pure _

/-- A name is resolved alike by loaders that agree. -/
theorem TypeDescription.agree_resolve (t : TypeDescription) (name : String) :
    Act.Agree good (t.resolve ops name) (t.resolve ops' name) := by
  unfold resolve
  split
  · exact agree_pure _
  · split
    · exact TypePool.agree_describe hworld hops _ _
    · exact agree_pure _

omit hworld in
/-- The bound of a climb is the same for loaders that agree. -/
theorem TypeDescription.agree_stepLimit (t : TypeDescription) :
    Act.Agree good (t.stepLimit ops) (t.stepLimit ops') := by
  refine agree_get_bind fun s hs => ⟨?_, hs⟩
  unfold TypePool.extent
  rw [hops.extent]

end Lookup

/-! ### Matchers -/

namespace Matcher

/-- Asking one item after the other agrees if each test does. -/
theorem agree_anyOf {α : Type} {test test' : α → Act ε Answer} {items : List α}
    (h : ∀ a, Act.Agree good (test a) (test' a)) :
    Act.Agree good (anyOf test items) (anyOf test' items) := by
  induction items with
  | nil => exact agree_pure _
  | cons a rest ih =>
    refine (h a).bind fun answer => ?_
    rcases answer with e | _ | _
    · exact agree_pure _
    · exact ih
    · exact agree_pure _

section

include hworld

/-- A judgement is accepted alike on both sides. -/
theorem agree_accept (j : Judgement) : Act.Agree good (accept j : Act ε Answer) (accept j) := by
  obtain ⟨v, hv⟩ : ∃ v, ∀ _ : Unit, Settles good (accept j : Act ε Answer) v :=
    exists_settles_accept (fun _ s _ hs => hworld s _ rfl hs) j
  exact (hv ()).agree

variable (hops : ops.AgreeInUse good ops') {test test' : TypeDescription → Act ε Answer}
include hops

/-- A search above a type agrees at every frontier if the tests do, by induction on its bound. -/
theorem agree_searchAbove (h : ∀ u, Act.Agree good (test u) (test' u)) (t : TypeDescription)
    (limit : Nat) (f : Frontier) :
    Act.Agree good (searchAbove ops t test limit f) (searchAbove ops' t test' limit f) := by
  induction limit generalizing f with
  | zero => exact agree_pure _
  | succ limit ih =>
    unfold searchAbove
    split
    · exact agree_pure _
    · next next rest _ =>
      refine (t.agree_resolve hworld hops next).bind fun found => ?_
      rcases found with e | u
      · exact agree_pure _
      · refine (h u).bind fun answer => ?_
        rcases answer with e | _ | _
        · exact agree_pure _
        · exact ih _
        · exact agree_pure _

/-- A search of the whole hierarchy agrees if the tests do. -/
theorem agree_searchHierarchy (h : ∀ u, Act.Agree good (test u) (test' u)) (t : TypeDescription) :
    Act.Agree good (searchHierarchy ops t test) (searchHierarchy ops' t test') := by
  refine (h t).bind fun answer => ?_
  rcases answer with e | _ | _
  · exact agree_pure _
  · exact (t.agree_stepLimit hops).bind fun limit => agree_searchAbove hworld hops h t limit _
  · exact agree_pure _

/-- **A matcher** asks no more than the loaders answer. -/
theorem agree_eval {k : Kind} (m : Matcher k) (t : Target k) :
    Act.Agree good (m.eval ops t) (m.eval ops' t) := by
  induction m with
  | not m ih =>
    refine (ih t).bind fun answer => ?_
    rcases answer with e | hit <;> exact agree_pure _
  | and m n ihm ihn =>
    refine (ihm t).bind fun answer => ?_
    rcases answer with e | _ | _
    · exact agree_pure _
    · exact agree_pure _
    · exact ihn t
  | or m n ihm ihn =>
    refine (ihm t).bind fun answer => ?_
    rcases answer with e | _ | _
    · exact agree_pure _
    · exact ihn t
    · exact agree_pure _
  | custom label judge => exact agree_accept hworld (judge t)
  | hasSuperType m ih => exact agree_searchHierarchy hworld hops (fun u => ih u) t
  | declaresMethod m ih => exact agree_anyOf fun d => ih d
  | _ => exact agree_pure _

end

end Matcher

/-! ### Rules -/

section Rules

variable (hops : ops.AgreeInUse good ops')
include hworld hops

/-- Ignore rules come to the same answer with loaders that agree. -/
theorem IgnoreRules.agree_covers (rules : IgnoreRules) (t : TypeDescription)
    (l : LoaderDescription) :
    Act.Agree good (rules.covers ops t l) (rules.covers ops' t l) := by
  have hlog (message : String) (fields : List (String × String)) :
      Act.Agree good (log .debug message fields >>= fun _ => (pure true : Act ε Bool))
        (log .debug message fields >>= fun _ => pure true) :=
    (hworld.agree_log _ _ _).bind fun _ => agree_pure true
  refine (rules.loaders.agree_eval hworld hops (t := l)).bind fun answer => ?_
  rcases answer with e | _ | _
  · exact (hworld.agree_log _ _ _).bind fun _ => agree_pure true
  · refine (rules.types.agree_eval hworld hops t).bind fun answer => ?_
    rcases answer with e | hit
    · exact hlog _ _
    · exact agree_pure hit
  · exact agree_pure true

namespace Rule

/-- A matcher that is guarded against panics answers alike, its panic included. -/
theorem agree_guarded (advice : String) {k : Kind} (m : Matcher k) (t : Target k) :
    Act.Agree good (guarded ops advice m t) (guarded ops' advice m t) := by
  refine (m.agree_eval hworld hops t).attempt.agree.bind fun answer => ?_
  rcases answer with p | e | hit
  · exact (hworld.agree_log _ _ _).bind fun _ => agree_pure _
  · exact (hworld.agree_log _ _ _).bind fun _ => agree_pure _
  · exact agree_pure _

/-- Whether a rule is about a type is answered alike. -/
theorem agree_matchesType (r : Rule) (t : TypeDescription) (l : LoaderDescription) :
    Act.Agree good (r.matchesType ops t l) (r.matchesType ops' t l) := by
  refine (agree_guarded hworld hops (k := .loader) r.advice r.loaders l).bind fun hit => ?_
  cases hit with
  | false => exact agree_pure _
  | true =>
    refine (agree_guarded hworld hops (k := .type) r.advice r.types t).bind fun hit => ?_
    cases hit with
    | false => exact agree_pure _
    | true => exact (hworld.agree_log _ _ _).bind fun _ => agree_pure _

/-- Whether a rule is about a method is answered alike. -/
theorem agree_matchesMethod (r : Rule) (m : MethodDescription) :
    Act.Agree good (r.matchesMethod ops m) (r.matchesMethod ops' m) := by
  refine (agree_guarded hworld hops (k := .method) r.advice r.methods m).bind fun hit => ?_
  cases hit with
  | false => exact agree_pure _
  | true => exact (hworld.agree_log _ _ _).bind fun _ => agree_pure _

end Rule

end Rules

/-! ### Pipelines -/

namespace Pipeline

variable (hops : ops.AgreeInUse good ops')
include hworld hops

/-- The plan for the methods of a class is made alike, method by method. -/
theorem agree_planMethods (r : Rule) (plan : WeavePlan) (methods : List (MethodDescription × Nat)) :
    Act.Agree good (planMethods ops r plan methods) (planMethods ops' r plan methods) := by
  induction methods generalizing plan with
  | nil => exact agree_pure _
  | cons entry rest ih =>
    obtain ⟨m, number⟩ := entry
    unfold planMethods
    split
    · refine (r.agree_matchesMethod hworld hops m).bind fun hit => ?_
      cases hit with
      | false => exact ih plan
      | true => exact ih _
    · exact ih plan

/-- The plan of all rules is made alike, rule by rule. -/
theorem agree_planRules (t : TypeDescription) (loader : Option LoaderId) (l : LoaderDescription)
    (plan : WeavePlan) (rules : List Rule) :
    Act.Agree good (planRules ops t loader l plan rules) (planRules ops' t loader l plan rules) := by
  induction rules generalizing plan with
  | nil => exact agree_pure _
  | cons r rest ih =>
    refine (r.agree_matchesType hworld hops t l).bind fun hit => ?_
    cases hit with
    | false => exact ih plan
    | true =>
      exact ((hops.logHierarchy r loader).whenKept _).bind fun _ =>
        (agree_planMethods hworld hops r plan _).bind fun plan' => ih plan'

omit hops in
/-- Weaving asks no loader, so it agrees with itself. -/
theorem agree_weaveInto (p : Pipeline) (bytes : Bytes) (c : ClassFile) (t : TypeDescription)
    (plan : WeavePlan) :
    Act.Agree good (p.weaveInto bytes c t plan : Act ε _) (p.weaveInto bytes c t plan) := by
  unfold weaveInto
  split
  · exact agree_pure _
  · split
    · exact agree_pure _
    · exact (hworld.agree_log _ _ _).bind fun _ =>
        (hworld.agree_record _ _).bind fun _ => agree_pure _
    · exact (hworld.agree_log _ _ _).bind fun _ => agree_pure _

/-- A class that was described is transformed alike. -/
theorem agree_transformType (p : Pipeline) (r : TransformRequest) (l : LoaderDescription)
    (c : ClassFile) (t : TypeDescription) :
    Act.Agree good (p.transformType ops r l c t) (p.transformType ops' r l c t) := by
  have hplan (t : TypeDescription) : Act.Agree good
      (planRules ops t r.loader l .empty p.rules >>= p.weaveInto r.bytes c t)
      (planRules ops' t r.loader l .empty p.rules >>= p.weaveInto r.bytes c t) :=
    (agree_planRules hworld hops t r.loader l .empty p.rules).bind fun plan =>
      agree_weaveInto hworld p r.bytes c t plan
  unfold transformType
  refine (hworld.agree_newPool _).bind fun id => ?_
  split
  · refine (p.ignore.agree_covers hworld hops _ l).bind fun hit => ?_
    cases hit with
    | false => exact hplan _
    | true => exact agree_pure _
  · exact hplan _

/-- The bytes of a request are transformed alike. -/
theorem agree_transformBytes (p : Pipeline) (r : TransformRequest) (l : LoaderDescription) :
    Act.Agree good (p.transformBytes ops r l) (p.transformBytes ops' r l) := by
  unfold transformBytes
  split
  · exact (hworld.agree_log _ _ _).bind fun _ => agree_pure _
  · split
    · exact (hworld.agree_log _ _ _).bind fun _ => agree_pure _
    · exact agree_transformType hworld hops p r l _ _

end Pipeline

section Transformers

variable (hops : ops.AgreeInUse good ops')
include hops

/-- The loader of a request is described alike. -/
theorem TransformRequest.agree_loaderDescription (r : TransformRequest) :
    Act.Agree good (r.loaderDescription ops) (r.loaderDescription ops') := by
  unfold loaderDescription
  split
  · exact hops.describe _
  · exact agree_pure _

include hworld

/-- **A pipeline** does the same, however the loaders are asked. -/
theorem Pipeline.agree_transform (p : Pipeline) (r : TransformRequest) :
    Act.Agree good (p.transform ops r) (p.transform ops' r) := by
  refine (r.agree_loaderDescription hops).bind fun l => ?_
  split
  · exact agree_transformBytes hworld hops p r l
  · refine (p.ignore.agree_covers hworld hops _ l).bind fun hit => ?_
    cases hit with
    | false => exact agree_transformBytes hworld hops p r l
    | true => exact agree_pure _

/-- **What a transformer from outside does** with a class is the same, however the loaders are asked. -/
theorem ForeignWork.agree_run (work : ForeignWork) (r : TransformRequest) :
    Act.Agree good (work.run ops r) (work.run ops' r) := by
  induction work with
  | answer out => exact agree_pure _
  | panic => exact settles_panic.agree
  | note text next ih => exact (hworld.agree_note _).bind fun _ => ih
  | describe next ih => exact (r.agree_loaderDescription hops).bind fun l => ih l
  | load event next ih => exact (hops.load event).bind fun out => ih out

namespace Transformer

/-- A transformer answers alike if the loaders agree, be it a pipeline or a foreign one. -/
theorem agree_transform (t : Transformer) (r : TransformRequest) :
    Act.Agree good (t.transform ops r) (t.transform ops' r) := by
  cases t with
  | pipeline p => exact p.agree_transform hworld hops r
  | custom name work => exact (work r).agree_run hworld hops r

/-- **Transformers in a row** do the same, however the loaders are asked. -/
theorem agree_transformAll (r : TransformRequest) (transformers : List Transformer) :
    Act.Agree good (transformAll ops r transformers) (transformAll ops' r transformers) := by
  induction transformers generalizing r with
  | nil => exact agree_pure _
  | cons t rest ih =>
    refine (agree_transform hworld hops t r).bind fun out => ?_
    cases out with
    | none => exact ih r
    | some bytes => exact (ih { r with bytes }).bind fun later => agree_pure _

end Transformer

end Transformers

namespace Transformer

/-! ### Transformers in a row -/

/-- What a class has become so far is passed to a transformer, or else the class itself; an answer takes
the place of what there was. -/
def passOn (ops : LoaderOps ε) (r : TransformRequest) (latest : Option Bytes) (t : Transformer) :
    Act ε (Option Bytes) := do
  let out ← t.transform ops { r with bytes := latest.getD r.bytes }
  return out.or latest

/-- The fold may start later, with what a class became before. -/
theorem foldlM_passOn (ops : LoaderOps ε) (r : TransformRequest) (bytes : Bytes)
    (transformers : List Transformer) :
    transformers.foldlM (passOn ops r) (some bytes)
      = (do return some ((← transformAll ops { r with bytes } transformers).getD bytes)) := by
  induction transformers generalizing bytes with
  | nil => rfl
  | cons t rest ih =>
    rw [List.foldlM_cons, passOn, transformAll, bind_assoc, bind_assoc]
    refine bind_congr fun out => ?_
    rw [pure_bind]
    cases out with
    | none => exact ih bytes
    | some later =>
      refine (ih later).trans ?_
      rw [bind_assoc]
      rfl

/-- **Transformers in a row** are a fold: each sees the latest answer of those before it, or the class
itself, and what comes out is the latest answer of all. -/
theorem transformAll_eq_foldlM (ops : LoaderOps ε) (r : TransformRequest)
    (transformers : List Transformer) :
    transformAll ops r transformers = transformers.foldlM (passOn ops r) none := by
  induction transformers with
  | nil => rfl
  | cons t rest ih =>
    rw [List.foldlM_cons, passOn, transformAll, bind_assoc]
    refine bind_congr fun out => ?_
    rw [pure_bind]
    cases out with
    | none => exact ih
    | some bytes => exact (foldlM_passOn ops r bytes rest).symm

end Transformer

end AdviceWeaver

import AdviceWeaver.Proofs.Library.NestedLoads
import Mathlib.Data.List.InsertIdx
import Mathlib.Data.List.Perm.Basic

/-!
# Loaders that are probed

Somebody who is passed a class loader may ask it what it is, for its parent, whether it can load a class,
and for class files; then ask the parents, and drop each of these loaders at any time. Between two such
probes the loaders of the JVM may change, and so may the calls of the native interface that fail, so that
every pattern of failures is met.

Each probe leaves the native interface as clean as it was (`Jvm.CleanSince`). The references that are live
are at any time those from before and those of the parents that are still held, which is what carries the
proof over a sequence of probes (`Holds`).

## Main results

* `LoaderProbe.returns_act` — one probe.
* `LoaderProbe.returns_actAll` — a sequence of probes.
* `LoaderProbe.leaves_clean` — all loaders are dropped in the end, and nothing is left behind.
-/

namespace AdviceWeaver

open Act Library Account

/-! ### Probes -/

/-- A question to a class loader. -/
inductive LoaderQuestion where
  | description
  | parent
  | canLoad (name : String)
  | classFile (name : String)
deriving DecidableEq, Repr, Inhabited

/-- The loaders that come of a question to a loader. -/
def LoaderQuestion.ask (l : LoaderId) : LoaderQuestion → Act Library (List LoaderId)
  | .description => do
    let _ ← JvmHost.loaderOps.describe l
    return []
  | .parent => do
    match ← JvmHost.loaderOps.parent l with
    | .ok above => return above.toList
    | .error _ => return []
  | .canLoad name => do
    let _ ← JvmHost.loaderOps.canLoad l name
    return []
  | .classFile name => do
    let _ ← JvmHost.loaderOps.classFile l name
    return []

/-- What is done with the loaders that are held. -/
inductive LoaderProbe where
  /-- The loader at some place is asked. -/
  | ask (place : Nat) (question : LoaderQuestion)
  /-- The loader at some place is dropped. -/
  | drop (place : Nat)
  /-- From now on the JVM has these loaders, and these calls of its native interface fail. -/
  | rescript (loaders : Array JvmLoader) (behaviour : JvmBehaviour)

namespace LoaderProbe

/-- A probe of the loaders that are held; the result is the loaders that are held then. There is nothing to
do for a place where no loader is. -/
def act (held : List LoaderId) : LoaderProbe → Act Library (List LoaderId)
  | .ask place question => do
    match held[place]? with
    | none => return held
    | some l => return held ++ (← question.ask l)
  | .drop place => do
    match held[place]? with
    | none => return held
    | some l =>
      JvmHost.loaderOps.release l
      return held.eraseIdx place
  | .rescript loaders behaviour => do
    modifyVm fun vm =>
      { vm with loaders, behaviour := { behaviour with codes := vm.behaviour.codes } }
    return held

/-- One probe after the other. -/
def actAll (held : List LoaderId) : List LoaderProbe → Act Library (List LoaderId)
  | [] => return held
  | p :: rest => do actAll (← p.act held) rest

/-- Probes of a loader that was passed to somebody, and of the parents obtained from it. -/
def start (loader : JvmRef) (probes : List LoaderProbe) : Act Library (List LoaderId) := do
  actAll [← LoaderAccess.new loader false] probes

end LoaderProbe

/-- The references that have to be given back for the loaders that are held. -/
def Library.owed (w : Library) (held : List LoaderId) : List JvmRef :=
  held.flatMap fun l => match w.loaderViews[l]? with
    | some v => if v.owned then [v.ref] else []
    | none => []

/-- A JVM is as clean as it was before: no exception is pending, and no function was called that must not
be called while one is; nothing was given back that was not live; and besides what is owed just those
references are live that were so before. -/
structure Jvm.CleanSince (jvm : Jvm) (owed : List JvmRef) (jvm' : Jvm) : Prop where
  exceptionPending : jvm'.exceptionPending = false
  callsWhilePending : jvm'.callsWhilePending = jvm.callsWhilePending
  badReturns : jvm'.badReturns = jvm.badReturns
  refs : jvm'.refs.Perm (owed ++ jvm.refs)

/-- Nobody looks at classes that are loaded meanwhile, or else the JVM takes its memory back. -/
def Library.IsThrifty (w : Library) : Prop :=
  w.host = none ∨ w.insideHook = true ∨ w.jvm.Deallocates

/-- A library that looks at classes loaded meanwhile has a JVM that takes memory back. -/
theorem Library.IsThrifty.deallocates {w : Library} (h : w.IsThrifty) (hhost : w.host.isSome = true)
    (hinside : w.insideHook = false) : w.jvm.Deallocates := by
  rcases h with hnone | htrue | hdeallocates
  · rw [hnone] at hhost
    cases hhost
  · exact absurd (hinside.symm.trans htrue) Bool.false_ne_true
  · exact hdeallocates

variable {w₀ : Library} {thrifty reliable : Prop} {views : List HeldView} {refs : List JvmRef}
  {blocks : List Nat} {held : List LoaderId} {s : Session Library}

/-- These loaders are held, and what is owed for them is in hand. -/
def Holds (w₀ : Library) (thrifty reliable : Prop) (held : List LoaderId) (s : Session Library) :
    Prop :=
  ∃ views : List HeldView, held = views.map HeldView.id
    ∧ (probing w₀ thrifty reliable views).Balance (views.flatMap HeldView.owed) [] False s

/-- What is owed for loaders is what is owed for their views. -/
theorem Holds.owed_eq {w : Library} (hviews : ∀ v ∈ views, v.IsIn w) :
    w.owed (views.map HeldView.id) = views.flatMap HeldView.owed := by
  induction views with
  | nil => rfl
  | cons v rest ih =>
    obtain ⟨description, hview⟩ := hviews v List.mem_cons_self
    have hrest := ih fun u hu => hviews u (List.mem_cons_of_mem v hu)
    rw [List.map_cons, List.flatMap_cons, ← hrest, Library.owed, List.flatMap_cons, hview]
    rfl

/-- A library that holds loaders has a JVM as clean as before, but for what is owed. -/
theorem Holds.clean (hopened : w₀.jvm.exceptionPending = false)
    (hs : Holds w₀ thrifty reliable held s) :
    w₀.jvm.CleanSince (s.world.owed held) s.world.jvm
      ∧ (thrifty → s.world.jvm.blocks.Perm w₀.jvm.blocks) := by
  obtain ⟨views, rfl, hs⟩ := hs
  obtain ⟨lost, hblocks, hlost⟩ := hs.blocks
  obtain ⟨hcalls, hpending⟩ := hs.calm hopened
  refine ⟨⟨eq_false_of_ne_true hpending, hcalls, hs.badReturns, ?_⟩, fun h => ?_⟩
  · rw [owed_eq hs.keeps.views]
    exact hs.refs
  · rw [hlost h] at hblocks
    exact hblocks

/-! ### Probing -/

section Probing

variable (hopened : w₀.jvm.exceptionPending = false)
  (hthrifty : w₀.host.isSome = true → w₀.insideHook = false → thrifty → reliable)
include hopened hthrifty

/-- **A question** leaves in hand the loaders that come of it. -/
theorem LoaderQuestion.returns_ask (q : LoaderQuestion) (l : LoaderId) :
    Returns ((probing w₀ thrifty reliable views).Balance refs blocks False) (q.ask l)
      fun found s => ∃ new : List HeldView, found = new.map HeldView.id
        ∧ (probing w₀ thrifty reliable (new ++ views)).Balance
          (new.flatMap HeldView.owed ++ refs) blocks False s := by
  have hnested (views : List HeldView) :
      (probing w₀ thrifty reliable views).Undisturbed JvmHost.hook :=
    undisturbed_probing (JvmHost.admits_loadHook hopened hthrifty 2)
  cases q with
  | description =>
    exact (LoaderAccess.returns_description l).bind fun _ => returns_pure fun _ hs => ⟨[], rfl, hs⟩
  | parent =>
    refine (LoaderAccess.returns_parent hopened hnested l).bind fun answer => ?_
    rintro s (⟨v, rfl, hs⟩ | ⟨hanswer, hs⟩)
    · exact ⟨[v.id], s, rfl, [v], rfl, by simpa using hs⟩
    · rcases answer with e | _ | above
      · exact ⟨[], s, rfl, [], rfl, hs⟩
      · exact ⟨[], s, rfl, [], rfl, hs⟩
      · exact absurd rfl (hanswer above)
  | canLoad name =>
    exact (LoaderAccess.returns_canLoad hopened (hnested views) l name).bind fun _ =>
      returns_pure fun _ hs => ⟨[], rfl, hs⟩
  | classFile name =>
    exact (LoaderAccess.returns_classFile hopened (hnested views) l name).bind fun _ =>
      returns_pure fun _ hs => ⟨[], rfl, hs⟩

namespace LoaderProbe

/-- **One probe** leaves in hand what is owed for the loaders that are held then. -/
theorem returns_act (p : LoaderProbe) :
    Returns (Holds w₀ thrifty reliable held) (p.act held) (Holds w₀ thrifty reliable) := by
  rintro s ⟨views, rfl, hs⟩
  cases p with
  | ask place question =>
    rw [act, List.getElem?_map]
    cases views[place]? with
    | none => exact ⟨_, s, rfl, views, rfl, hs⟩
    | some v =>
      obtain ⟨_, s', hrun, new, rfl, hs'⟩ := question.returns_ask hopened hthrifty v.id s hs
      refine ⟨_, s', run_bind_ok hrun, views ++ new, List.map_append.symm, ?_⟩
      refine balance_of_views_subset (fun u hu => ?_) (hs'.perm ?_)
      · exact List.mem_append.2 (List.mem_append.1 hu).symm
      · rw [List.flatMap_append]
        exact List.perm_append_comm
  | drop place =>
    rw [act, List.getElem?_map]
    cases hplace : views[place]? with
    | none => exact ⟨_, s, rfl, views, rfl, hs⟩
    | some v =>
      obtain ⟨hlt, rfl⟩ := List.getElem?_eq_some_iff.1 hplace
      have hperm : (views.flatMap HeldView.owed).Perm
          (views[place].owed ++ (views.eraseIdx place).flatMap HeldView.owed) :=
        (List.getElem_cons_eraseIdx_perm hlt).symm.flatMap_right HeldView.owed
      obtain ⟨⟨⟩, s', hrun, hs'⟩ := LoaderAccess.returns_release views[place]
        (List.getElem_mem hlt) s (hs.perm hperm)
      refine ⟨_, s', run_bind_ok hrun, views.eraseIdx place, ?_, ?_⟩
      · rw [List.eraseIdx_map]
      · exact balance_of_views_subset (fun _ hu => List.mem_of_mem_eraseIdx hu) hs'
  | rescript loaders behaviour =>
    exact ⟨_, _, rfl, views, rfl, hs.refs, hs.blocks, hs.badReturns, hs.calm, hs.keeps.host,
      hs.keeps.insideHook, hs.keeps.deallocates, hs.keeps.views⟩

/-- **A sequence of probes** does so too. -/
theorem returns_actAll (probes : List LoaderProbe) :
    Returns (Holds w₀ thrifty reliable held) (actAll held probes) (Holds w₀ thrifty reliable) := by
  induction probes generalizing held with
  | nil => exact returns_pure fun _ hs => hs
  | cons p rest ih => exact (p.returns_act hopened hthrifty).bind fun _ => ih

end LoaderProbe

end Probing

namespace LoaderProbe

/-- The loaders that are held in the end are given up one after the other. -/
theorem returns_forM_release (rest : List HeldView) (hrest : ∀ v ∈ rest, v ∈ views) :
    Returns ((probing w₀ thrifty reliable views).Balance
        (rest.flatMap HeldView.owed ++ refs) blocks False)
      ((rest.map HeldView.id).forM JvmHost.loaderOps.release)
      fun _ => (probing w₀ thrifty reliable views).Balance refs blocks False := by
  induction rest with
  | nil => exact returns_pure fun _ hs => hs
  | cons v rest ih =>
    rw [List.flatMap_cons, List.append_assoc]
    exact (LoaderAccess.returns_release v (hrest v List.mem_cons_self)).bind fun _ =>
      ih fun u hu => hrest u (List.mem_cons_of_mem v hu)

/-- **Probing loaders leaves the native interface clean.** Whatever sequence of probes starts with a loader
that was passed to somebody while no exception was pending, and whatever fails in it: it does not panic;
afterwards no exception is pending, nothing was called meanwhile that must not be called while one is,
nothing was given back that was not live, and just the references to the parents that are still held are
live besides those from before. Once all loaders are dropped, none is. No block of memory gets lost if
nobody listens to classes that are loaded meanwhile, or if the JVM takes memory back; the characters of a
string are given back at once in any case. -/
theorem leaves_clean (s : Session Library) (loader : JvmRef) (probes : List LoaderProbe)
    (hopened : s.world.jvm.exceptionPending = false) :
    (∃ held s₁ s₂, (start loader probes).run s = (.ok held, s₁)
      ∧ s.world.jvm.CleanSince (s₁.world.owed held) s₁.world.jvm
      ∧ (held.forM JvmHost.loaderOps.release).run s₁ = (.ok (), s₂)
      ∧ s.world.jvm.CleanSince [] s₂.world.jvm
      ∧ (s.world.IsThrifty → s₁.world.jvm.blocks.Perm s.world.jvm.blocks
        ∧ s₂.world.jvm.blocks.Perm s.world.jvm.blocks))
    ∧ ∀ (t : Session Library) (string : Option JvmRef),
      ∃ text t', (NativeInterface.getText string).run t = (.ok text, t')
        ∧ t'.world.jvm.blocks.Perm t.world.jvm.blocks
        ∧ t'.world.jvm.badReturns = t.world.jvm.badReturns := by
  constructor
  · have hthrifty (hhost : s.world.host.isSome = true) (hinside : s.world.insideHook = false)
        (h : s.world.IsThrifty) : s.world.jvm.Deallocates := h.deallocates hhost hinside
    have hstart : (probing s.world s.world.IsThrifty s.world.jvm.Deallocates []).Balance [] [] False s :=
      balance_probing id nofun
    obtain ⟨l, s₀, hnew, hs₀⟩ := LoaderAccess.returns_new loader false s hstart
    obtain ⟨held, s₁, hrun, hs₁⟩ :=
      returns_actAll hopened hthrifty probes s₀ ⟨[⟨l, loader, false⟩], rfl, hs₀⟩
    have hclean := hs₁.clean hopened
    obtain ⟨views, rfl, hs₁⟩ := hs₁
    rw [← List.append_nil (views.flatMap HeldView.owed)] at hs₁
    obtain ⟨⟨⟩, s₂, hrelease, hs₂⟩ := returns_forM_release views (fun _ hv => hv) s₁ hs₁
    have hs₂ : Holds s.world s.world.IsThrifty s.world.jvm.Deallocates [] s₂ :=
      ⟨[], rfl, balance_of_views_subset nofun hs₂⟩
    have hclean' := hs₂.clean hopened
    exact ⟨_, s₁, s₂, (run_bind_ok hnew).trans hrun, hclean.1, hrelease, hclean'.1,
      fun h => ⟨hclean.2 h, hclean'.2 h⟩⟩
  · intro t string
    have hstart : (probing t.world True False []).Balance [] [] False t :=
      balance_probing False.elim nofun
    obtain ⟨text, t', hrun, ht'⟩ := NativeInterface.returns_getText string t hstart
    obtain ⟨lost, hblocks, hlost⟩ := ht'.blocks
    rw [hlost trivial] at hblocks
    exact ⟨text, t', hrun, hblocks, ht'.badReturns⟩

/-- A loader below another one. The lower one throws when it is asked to load a class, and a class is loaded
while it is asked; nothing comes of closing its streams. -/
def sampleLoaders : Array JvmLoader :=
  #[⟨"app", Text.Utf8.encode "p.App", some 1, [("p/A", [1, 2, 3])], ["loadClass", "close"],
      false, false, false, some ("p/N", [7])⟩,
    ⟨"system", Text.Utf8.encode "p.System", none, [], ["getName"], false, true, false, none⟩]

/-- A library that listens to classes that are loaded, with a transformer that panics. Its JVM does not take
memory back. -/
def sampleSession : Session Library :=
  .start { Library.start
      { Jvm.start #[] sampleLoaders [] [.deallocate] [] { JvmBehaviour.regular with
          noMethod := ["readAllBytes"] } with
        callbacks := ⟨none, none, true⟩
        enabled := [JvmEvent.classFileLoad] } ⟨[]⟩ ⟨[]⟩ with
    host := some ⟨true, [.custom "broken" fun _ => .describe fun _ => .panic]⟩ }

/-- The lower loader is asked for its parent and for classes, and dropped; then the other one is asked, which
throws, and can be found no more in the end. -/
def sampleProbes : List LoaderProbe :=
  [.ask 0 .parent, .ask 0 (.classFile "p/A"), .ask 0 (.canLoad "p.A"), .drop 0, .ask 0 .description,
    .rescript sampleLoaders { JvmBehaviour.regular with noStrings := true }, .ask 0 (.canLoad "p.A")]

/-- One loader is held in the end: the parent of the first. When it is released everything is clean. -/
theorem leaves_clean_sample :
    sampleSession.world.jvm.exceptionPending = false
      ∧ ∃ held s₁ s₂, (start (.lent (.loader 0)) sampleProbes).run sampleSession = (.ok held, s₁)
        ∧ held = [1]
        ∧ sampleSession.world.jvm.CleanSince (s₁.world.owed held) s₁.world.jvm
        ∧ (held.forM JvmHost.loaderOps.release).run s₁ = (.ok (), s₂)
        ∧ sampleSession.world.jvm.CleanSince [] s₂.world.jvm := by
  obtain ⟨held, s₁, s₂, hrun, hclean, hrelease, hclean', -⟩ :=
    (leaves_clean sampleSession (.lent (.loader 0)) sampleProbes rfl).1
  have hheld : ((start (.lent (.loader 0)) sampleProbes).run sampleSession).1.toOption = some [1] := by
    decide +kernel
  rw [hrun] at hheld
  exact ⟨rfl, held, s₁, s₂, hrun, Option.some.inj hheld, hclean, hrelease, hclean'⟩

end LoaderProbe

end AdviceWeaver

import Mathlib.Logic.Function.Basic
import AdviceWeaver.Hosting.Batches
import AdviceWeaver.Proofs.Matching.Lookup
import AdviceWeaver.Proofs.Session.Triples

/-!
# What hosts promise

A host runs the transformers registered with it on every class that it defines, and again, on the
initial class file, when it is asked to. The world holds more than that, so a host is looked at
through a view: its transformers, and its classes by handle (`HostView`). `HostContract` says how the
calls of a host change the view. It promises little of calls that fail, and nothing of calls that
panic.

## Main results

* `HostContract.ensures_retransformInBatches` — whatever batches the host refuses, every class is
  transformed again.
-/

namespace AdviceWeaver

open Act

/-! ### Views -/

/-- A class as a host holds it. -/
structure HostedClass where
  /-- The binary name. -/
  name : String
  /-- The internal name that transformers are given, if any. -/
  className : Option String
  loader : Option LoaderId
  description : LoaderDescription
  modifiable : Bool
  original : Bytes
  current : Bytes

namespace HostedClass

/-- The class in a listing. -/
def listed (k : HostedClass) (handle : Nat) : LoadedClass :=
  ⟨k.name, k.description, k.modifiable, handle⟩

/-- What transformers are given for the class. -/
def request (k : HostedClass) (redefining : Bool) : TransformRequest :=
  ⟨k.className, k.loader, redefining, k.original⟩

/-- The class after its initial class file was passed through transformers. If they panic, the class
has its initial form. -/
def passed (k : HostedClass) (answer : Except Panic (Option Bytes)) : HostedClass :=
  { k with current := (answer.toOption.join).getD k.original }

/-- Whether transformers left their mark on the class. -/
def IsChanged (k : HostedClass) : Prop :=
  k.current ≠ k.original

/-- The class is known by the name in its class file, if it can be described. -/
def IsNamed (k : HostedClass) : Prop :=
  ∀ t, TypeDescription.read k.original = .ok t → k.name = t.name

end HostedClass

/-- What matters of a host. -/
structure HostView where
  transformers : List Transformer
  /-- The classes by handle. -/
  classes : Nat → Option HostedClass

namespace HostView

/-- The host with a class in the place of a handle. -/
def set (v : HostView) (handle : Nat) (k : HostedClass) : HostView :=
  { v with classes := Function.update v.classes handle (some k) }

@[simp] theorem transformers_set (v : HostView) (handle : Nat) (k : HostedClass) :
    (v.set handle k).transformers = v.transformers :=
  rfl

@[simp] theorem classes_set_self (v : HostView) (handle : Nat) (k : HostedClass) :
    (v.set handle k).classes handle = some k := by
  simp [set]

/-- The other classes stay as they are. -/
theorem classes_set_of_ne (v : HostView) {handle other : Nat} (h : other ≠ handle)
    (k : HostedClass) : (v.set handle k).classes other = v.classes other := by
  simp [set, Function.update_of_ne h]

/-- The listing of the class of a handle. -/
def listing (v : HostView) (handle : Nat) : Option LoadedClass :=
  (v.classes handle).map fun k => k.listed handle

/-- The class is one that the host lists. -/
def Lists (v : HostView) (c : LoadedClass) : Prop :=
  v.listing c.handle = some c

/-- The listing does not show the form of a class. -/
theorem listing_set {v : HostView} {handle : Nat} {k : HostedClass}
    (hclass : v.classes handle = some k) (current : Bytes) :
    (v.set handle { k with current }).listing = v.listing := by
  funext other
  by_cases heq : other = handle
  · subst heq
    rw [listing, listing, classes_set_self, hclass]
    rfl
  · rw [listing, listing, classes_set_of_ne v heq]

end HostView

/-- How a world is looked at as one host, and which worlds the host is sound in. -/
structure HostModel (ε : Type) where
  view : ε → HostView
  valid : ε → Prop

/-- The class can be transformed again, and what the host says of it is true: its names are the one in
its class file, and its loader is described as the loader describes itself. -/
structure HostedClass.IsProper {ε : Type} (ops : LoaderOps ε) (M : HostModel ε)
    (k : HostedClass) : Prop where
  modifiable : k.modifiable = true
  named : k.IsNamed
  className (name : String) : k.className = some name → binaryName name = k.name
  described (s : Session ε) : M.valid s.world →
    (((k.request false).loaderDescription ops).run s).1 = .ok k.description

namespace HostModel

variable {ε : Type}

/-- From `s`, the host comes to look like `v` and leaves the records of the engine alone. -/
structure Becomes (M : HostModel ε) (s : Session ε) (v : HostView) (s' : Session ε) : Prop where
  valid : M.valid s'.world
  view : M.view s'.world = v
  records : s'.records = s.records

/-- Nothing happens that matters. -/
def Rests (M : HostModel ε) (s s' : Session ε) : Prop :=
  M.Becomes s (M.view s.world) s'

/-- The action leaves the host and the records of the engine alone. -/
def Spares {α : Type} (M : HostModel ε) (a : Act ε α) : Prop :=
  ∀ s x s', M.valid s.world → a.run s = (.ok x, s') → M.Rests s s'

/-- A class passes through the transformers and is then in the place of a handle. -/
def Passes (M : HostModel ε) (ops : LoaderOps ε) (handle : Nat) (k : HostedClass)
    (redefining : Bool) (s s' : Session ε) : Prop :=
  ∃ answer s₁, (Transformer.transformAll ops (k.request redefining)
      (M.view s.world).transformers).run s = (answer, s₁)
    ∧ M.Becomes s₁ ((M.view s₁.world).set handle (k.passed answer)) s'

/-- A class is defined: it takes a new handle and passes through the transformers. It is modifiable
and known by its own name. -/
inductive Defines (M : HostModel ε) (ops : LoaderOps ε) : Session ε → Session ε → Prop
  | intro {s s₁ s' : Session ε} {handle : Nat} {k : HostedClass} (hrests : M.Rests s s₁)
      (hnew : (M.view s₁.world).classes handle = none) (hmodifiable : k.modifiable = true)
      (hnamed : k.IsNamed) (hpasses : M.Passes ops handle k false s₁ s') : Defines M ops s s'

/-- Classes are defined one after the other. Each takes a new handle and passes through the
transformers. -/
inductive DefinesAll (M : HostModel ε) (ops : LoaderOps ε) :
    List HostedClass → List Nat → Session ε → Session ε → Prop
  | nil {s s' : Session ε} (hrests : M.Rests s s') : DefinesAll M ops [] [] s s'
  | cons {s s₁ s₂ s' : Session ε} {handle : Nat} {handles : List Nat} {k : HostedClass}
      {ks : List HostedClass} (hrests : M.Rests s s₁)
      (hnew : (M.view s₁.world).classes handle = none)
      (hpasses : M.Passes ops handle k false s₁ s₂) (hrest : DefinesAll M ops ks handles s₂ s') :
      DefinesAll M ops (k :: ks) (handle :: handles) s s'

/-- Classes pass through the transformers again, one after the other. What comes out for a class may
also be thrown away. -/
inductive Reruns (M : HostModel ε) (ops : LoaderOps ε) :
    List Nat → Session ε → Session ε → Prop
  | nil {s s' : Session ε} (hrests : M.Rests s s') : Reruns M ops [] s s'
  | cons {s s₁ s₂ s' : Session ε} {handle : Nat} {handles : List Nat} {k : HostedClass}
      (hrests : M.Rests s s₁) (hclass : (M.view s₁.world).classes handle = some k)
      (hpasses : M.Passes ops handle k true s₁ s₂) (hrest : Reruns M ops handles s₂ s') :
      Reruns M ops (handle :: handles) s s'
  | dropped {s s₁ s₂ s₃ s' : Session ε} {handle : Nat} {handles : List Nat} {k : HostedClass}
      {answer : Except Panic (Option Bytes)} (hrests : M.Rests s s₁)
      (hclass : (M.view s₁.world).classes handle = some k)
      (hrun : (Transformer.transformAll ops (k.request true) (M.view s₁.world).transformers).run s₁
        = (answer, s₂)) (hdropped : M.Rests s₂ s₃) (hrest : Reruns M ops handles s₃ s') :
      Reruns M ops handles s s'

/-- A host that rests twice has rested. -/
theorem Rests.trans {M : HostModel ε} {s s₁ s' : Session ε} (h : M.Rests s s₁)
    (h' : M.Rests s₁ s') : M.Rests s s' :=
  ⟨h'.valid, h'.view.trans h.view, h'.records.trans h.records⟩

/-- What happens before the first class passes does not matter. -/
theorem Reruns.of_rests {M : HostModel ε} {ops : LoaderOps ε} {handles : List Nat}
    {s s₁ s' : Session ε} (h : M.Rests s s₁) (hreruns : M.Reruns ops handles s₁ s') :
    M.Reruns ops handles s s' := by
  cases hreruns with
  | nil hrests => exact .nil (h.trans hrests)
  | cons hrests hclass hpasses hrest => exact .cons (h.trans hrests) hclass hpasses hrest
  | dropped hrests hclass hrun hdropped hrest =>
    exact .dropped (h.trans hrests) hclass hrun hdropped hrest

end HostModel

/-! ### The contract -/

/-- **What a host promises:** how its calls change its view, as far as they return. Looking at class
loaders changes nothing. A call for several classes may be refused after some of them passed, but not
a call for one modifiable class. -/
structure HostContract {ε : Type} (ops : LoaderOps ε) (hosts : HostOps ε) (h : HostId)
    (M : HostModel ε) : Prop where
  loaders (v : HostView) : ops.Reliable fun w => M.valid w ∧ M.view w = v
  addTransformer {s s' : Session ε} {t : Transformer} : M.valid s.world →
    (hosts.addTransformer h t).run s = (.ok (), s') →
    M.Becomes s { M.view s.world with transformers := (M.view s.world).transformers ++ [t] } s'
  removeTransformer {s s' : Session ε} {t : Transformer} {found : Bool} : M.valid s.world →
    (hosts.removeTransformer h t).run s = (.ok found, s') →
    M.Becomes s { M.view s.world with
      transformers := (M.view s.world).transformers.filter fun u => u.id ≠ t.id } s'
  supportsRetransform {s s' : Session ε} {answer : Bool} : M.valid s.world →
    (hosts.supportsRetransform h).run s = (.ok answer, s') → M.Rests s s'
  loadedClasses {s s' : Session ε} {answer : Except HostError (List LoadedClass)} :
    M.valid s.world → (hosts.loadedClasses h).run s = (.ok answer, s') →
    M.Rests s s' ∧ ∀ loaded, answer = .ok loaded → ∀ c, c ∈ loaded ↔ (M.view s.world).Lists c
  retransform {s s' : Session ε} {classes : List LoadedClass} {answer : Except HostError Unit} :
    M.valid s.world → (∀ c ∈ classes, (M.view s.world).Lists c) →
    (hosts.retransform h classes).run s = (.ok answer, s') →
    ∃ handles, M.Reruns ops handles s s'
      ∧ (answer = .ok () → ∀ c ∈ classes, c.handle ∈ handles)
      ∧ (∀ c, classes = [c] → c.modifiable = true → answer = .ok ())

/-- Whatever class passes through the transformers in a fit world, they do not panic. -/
def Transformer.NeverPanic {ε : Type} (ops : LoaderOps ε) (fits : ε → Prop)
    (transformers : List Transformer) : Prop :=
  ∀ r, Safe (fun s => fits s.world) (transformAll ops r transformers)

/-- **A willing host** can transform classes again and can list them, and does not panic unless its
transformers do. It may still refuse calls for several classes. -/
structure HostOps.Willing {ε : Type} (ops : LoaderOps ε) (hosts : HostOps ε) (h : HostId)
    (M : HostModel ε) : Prop where
  addTransformer (t : Transformer) :
    Returns (fun s => M.valid s.world) (hosts.addTransformer h t) fun _ _ => True
  supportsRetransform :
    Returns (fun s => M.valid s.world) (hosts.supportsRetransform h) fun answer _ => answer = true
  loadedClasses : Returns (fun s => M.valid s.world) (hosts.loadedClasses h)
    fun answer _ => ∃ loaded, answer = .ok loaded
  retransform (classes : List LoadedClass) :
    Returns (fun s => M.valid s.world ∧ (∀ c ∈ classes, (M.view s.world).Lists c)
        ∧ Transformer.NeverPanic ops M.valid (M.view s.world).transformers)
      (hosts.retransform h classes) fun _ _ => True

/-! ### Batches -/

/-- The batches of some items in a row are the items. -/
theorem flatten_batches {α : Type} {size : Nat} (hsize : size ≠ 0) (items : List α) :
    (batches size items).flatten = items := by
  induction items using batches.induct size with
  | case1 items h =>
    rcases h with h | rfl
    · exact absurd h hsize
    · rw [batches, if_pos (.inr rfl)]
      rfl
  | case2 items h ih =>
    rw [batches, if_neg h, List.flatten_cons, ih, List.take_append_drop]

/-- Batches hold nothing but the items. -/
theorem subset_of_mem_batches {α : Type} {size : Nat} (hsize : size ≠ 0) {items batch : List α}
    (hbatch : batch ∈ batches size items) : batch ⊆ items := by
  have hsub : batch.Sublist (batches size items).flatten := List.sublist_flatten_of_mem hbatch
  rw [flatten_batches hsize] at hsub
  exact hsub.subset

/-- Classes are transformed again without a panic, if single calls for some of them do not panic. -/
theorem safe_retransformInBatches {ε : Type} {hosts : HostOps ε} {h : HostId}
    {good : Session ε → Prop} (hjournal : ∀ s journal, good s → good { s with journal })
    {classes : List LoadedClass} (hcall : ∀ cs ⊆ classes, Safe good (hosts.retransform h cs)) :
    Safe good (retransformInBatches hosts h classes) := by
  have hlog (level : Level) (message : String) (fields : List (String × String)) :
      Safe good (log level message fields) := (settles_log hjournal level message fields).safe
  have hone (c : LoadedClass) (hc : c ∈ classes) : Safe good (retransformOne hosts h c) := by
    refine (hcall [c] (List.cons_subset.2 ⟨hc, List.nil_subset _⟩)).bind fun answer => ?_
    rcases answer with e | ⟨⟩
    · exact hlog _ _ _
    · exact (settles_pure ()).safe
  refine Safe.forM fun batch hbatch => ?_
  have hsub : batch ⊆ classes := subset_of_mem_batches (by decide) hbatch
  refine (hcall batch hsub).bind fun answer => ?_
  rcases answer with e | ⟨⟩
  · exact (hlog _ _ _).bind fun _ => Safe.forM fun c hc => hone c (hsub hc)
  · exact (settles_pure ()).safe

namespace HostContract

variable {ε : Type} {ops : LoaderOps ε} {hosts : HostOps ε} {h : HostId} {M : HostModel ε}

section Batches

variable (hhost : HostContract ops hosts h M) {left : List LoadedClass → Session ε → Prop}
  (hlisted : ∀ cs s, left cs s →
    M.valid s.world ∧ ∀ c ∈ cs, c.modifiable = true ∧ (M.view s.world).Lists c)
  (hjournal : ∀ cs s journal, left cs s → left cs { s with journal })
  (hreruns : ∀ cs cs' handles s s', left cs s → M.Reruns ops handles s s' → cs' ⊆ cs →
    (∀ c ∈ cs, c ∈ cs' ∨ c.handle ∈ handles) → left cs' s')
include hhost hlisted hjournal hreruns

omit hjournal in
/-- A class that is modifiable is transformed again, since no host refuses that. -/
theorem ensures_retransformOne (c : LoadedClass) (rest : List LoadedClass) :
    Ensures (left (c :: rest)) (retransformOne hosts h c) fun _ => left rest := by
  have hcall : Ensures (left (c :: rest)) (hosts.retransform h [c])
      fun answer s => answer = .ok () ∧ left rest s := by
    intro s hs answer s' hrun
    obtain ⟨hvalid, hall⟩ := hlisted _ s hs
    obtain ⟨hmodifiable, hc⟩ := hall c List.mem_cons_self
    have hlists : ∀ d ∈ [c], (M.view s.world).Lists d := by
      intro d hd
      rw [List.mem_singleton.1 hd]
      exact hc
    obtain ⟨handles, hdone, hhandles, hsingle⟩ := hhost.retransform hvalid hlists hrun
    have hanswer : answer = .ok () := hsingle c rfl hmodifiable
    refine ⟨hanswer, hreruns _ _ _ _ _ hs hdone (List.subset_cons_self c rest) fun d hd => ?_⟩
    rcases List.mem_cons.1 hd with rfl | hd
    · exact .inr (hhandles hanswer d List.mem_cons_self)
    · exact .inl hd
  refine hcall.bind fun answer => ?_
  rcases answer with e | ⟨⟩
  · rintro s ⟨hanswer, -⟩
    cases hanswer
  · rintro s ⟨-, hs⟩ x s' hrun
    cases hrun
    exact hs

/-- A batch is transformed again. If the host refuses it, some of its classes may have passed; all of
them are then tried once more. -/
theorem ensures_retransformBatch (batch rest : List LoadedClass) :
    Ensures (left (batch ++ rest)) (retransformBatch hosts h batch) fun _ => left rest := by
  have hcall : Ensures (left (batch ++ rest)) (hosts.retransform h batch)
      fun answer s => left (batch ++ rest) s ∧ (answer = .ok () → left rest s) := by
    intro s hs answer s' hrun
    obtain ⟨hvalid, hall⟩ := hlisted _ s hs
    have hlists : ∀ c ∈ batch, (M.view s.world).Lists c :=
      fun c hc => (hall c (List.mem_append_left rest hc)).2
    obtain ⟨handles, hdone, hhandles, -⟩ := hhost.retransform hvalid hlists hrun
    refine ⟨hreruns _ _ _ _ _ hs hdone (List.Subset.refl _) fun c hc => .inl hc, fun hanswer => ?_⟩
    refine hreruns _ _ _ _ _ hs hdone (List.subset_append_right batch rest) fun c hc => ?_
    rcases List.mem_append.1 hc with hc | hc
    · exact .inr (hhandles hanswer c hc)
    · exact .inl hc
  refine hcall.bind fun answer => ?_
  rcases answer with e | ⟨⟩
  · have hlog : Ensures (left (batch ++ rest)) (log .debug
        "batch retransformation failed, retrying one class at a time" [("error", e.message)])
        fun _ => left (batch ++ rest) :=
      (settles_log (hjournal _) _ _ _).safe.ensures
    have hsingly : Ensures (left (batch ++ rest)) (batch.forM (retransformOne hosts h))
        fun _ => left rest :=
      ensures_forM (fun cs => left (cs ++ rest)) batch
        fun c cs => ensures_retransformOne hhost hlisted hreruns c (cs ++ rest)
    exact fun s hs => (hlog.bind fun _ => hsingly) s hs.1
  · rintro s ⟨-, hs⟩ x s' hrun
    cases hrun
    exact hs rfl

variable (left) in
/-- **Whatever batches the host refuses**, every class is transformed again. -/
theorem ensures_retransformInBatches (classes : List LoadedClass) :
    Ensures (left classes) (retransformInBatches hosts h classes) fun _ => left [] := by
  have hbatches := ensures_forM (fun rest => left rest.flatten) (batches batchSize classes)
    fun batch rest => ensures_retransformBatch hhost hlisted hjournal hreruns batch rest.flatten
  rw [flatten_batches (by decide)] at hbatches
  exact hbatches

end Batches

end HostContract

end AdviceWeaver

import AdviceWeaver.Proofs.Library.LoadHook
import AdviceWeaver.Proofs.Library.ToolAccounts

/-!
# Classes that are loaded while a loader is asked

A loader that is asked for a class may load another one meanwhile. The JVM then calls the library, which
has its transformers look at that class, and these may ask loaders again. None of it shows in the account
of whoever asked first (`JvmHost.admits_loadHook`): what the transformers obtain they give back, even if
one of them panics, and the block that is handed back is the JVM's to free.

The account also knows which views of loaders are held, as a view that was obtained as a parent has to be
given up (`HeldView`). Whether blocks may get lost and whether the JVM takes memory back are two things:
nothing gets lost either where the hook does nothing.

## Main results

* `LoaderAccess.returns_parent`, `LoaderAccess.returns_release` — a parent is in hand until it is given up.
* `LoaderAccess.returns_logLoaders_parent` — each of the loaders above one is given up once.
* `JvmHost.admits_loadHook` — the hook leaves nothing behind but the block that it hands back.
-/

namespace AdviceWeaver

open Act Library Account

/-! ### Views that are held -/

/-- A view of a loader that somebody holds. -/
structure HeldView where
  id : LoaderId
  ref : JvmRef
  owned : Bool

namespace HeldView

/-- What has to be given back with the view. -/
def owed (v : HeldView) : List JvmRef :=
  if v.owned then [v.ref] else []

/-- The library knows the view. -/
def IsIn (v : HeldView) (w : Library) : Prop :=
  ∃ description, w.loaderViews[v.id]? = some ⟨v.ref, v.owned, description⟩

end HeldView

/-- The library is still where it was, the views that are held are known to it, and its JVM takes memory
back if it is reliable. -/
structure Probing (w₀ : Library) (reliable : Prop) (views : List HeldView) (w : Library) : Prop where
  host : w.host = w₀.host
  insideHook : w.insideHook = w₀.insideHook
  deallocates : reliable → w.jvm.Deallocates
  views : ∀ v ∈ views, v.IsIn w

/-- The account of somebody who asks loaders, opened with a library. -/
def probing (w₀ : Library) (thrifty reliable : Prop) (views : List HeldView) : Account where
  opened := w₀.jvm
  keeps := Probing w₀ reliable views
  thrifty
  steady w w' h hw := by
    have hhost : w'.host = w.host := congrArg (fun w => w.host) h
    have hinside : w'.insideHook = w.insideHook := congrArg (fun w => w.insideHook) h
    have hmissing : w'.jvm.missing = w.jvm.missing := congrArg (fun w => w.jvm.missing) h
    have hcodes : w'.jvm.behaviour.codes = w.jvm.behaviour.codes :=
      congrArg (fun w => w.jvm.behaviour.codes) h
    have hviews : w'.loaderViews = w.loaderViews := congrArg (fun w => w.loaderViews) h
    refine ⟨hhost.trans hw.host, hinside.trans hw.insideHook, fun hreliable => ?_, fun v hv => ?_⟩
    · unfold Jvm.Deallocates
      rw [hmissing, hcodes]
      exact hw.deallocates hreliable
    · rw [HeldView.IsIn, hviews]
      exact hw.views v hv

variable {w₀ : Library} {thrifty reliable : Prop} {views views' : List HeldView}
  {refs : List JvmRef} {blocks : List Nat} {thrown : Prop} {hook : LoadHook} {s s' : Session Library}

/-- Who begins to ask loaders has nothing in hand, with views that the library knows. -/
theorem balance_probing (hreliable : reliable → s.world.jvm.Deallocates)
    (hviews : ∀ v ∈ views, v.IsIn s.world) :
    (probing s.world thrifty reliable views).Balance [] [] False s where
  refs := List.Perm.refl _
  blocks := ⟨[], List.Perm.refl _, fun _ => rfl⟩
  badReturns := rfl
  calm h := ⟨rfl, fun hpending => Bool.false_ne_true (h.symm.trans hpending)⟩
  keeps := ⟨rfl, rfl, hreliable, hviews⟩

/-- Views may be put out of mind. -/
theorem balance_of_views_subset (h : ∀ v ∈ views, v ∈ views')
    (hs : (probing w₀ thrifty reliable views').Balance refs blocks thrown s) :
    (probing w₀ thrifty reliable views).Balance refs blocks thrown s :=
  ⟨hs.refs, hs.blocks, hs.badReturns, hs.calm,
    { hs.keeps with views := fun v hv => hs.keeps.views v (h v hv) }⟩

/-- A library that comes to know more views of loaders, or more of some view. -/
theorem balance_of_loaderViews {loaderViews : Array LoaderView}
    (hs : (probing w₀ thrifty reliable views).Balance refs blocks thrown s)
    (h : ∀ v ∈ views', v.IsIn { s.world with loaderViews }) :
    (probing w₀ thrifty reliable views').Balance refs blocks thrown
      { s with world := { s.world with loaderViews } } :=
  ⟨hs.refs, hs.blocks, hs.badReturns, hs.calm, hs.keeps.host, hs.keeps.insideHook,
    hs.keeps.deallocates, h⟩

/-- The account of who asks loaders does not look at the codes of any function. -/
theorem indifferent_probing (f : ToolFunction) :
    (probing w₀ thrifty reliable views).Indifferent f :=
  fun _ hw => ⟨hw.host, hw.insideHook, fun h => (hw.deallocates h).codeTaken f, hw.views⟩

/-- Blocks are given back meanwhile if the JVM takes them back. -/
theorem refunds_probing (h : thrifty → reliable) :
    (probing w₀ thrifty reliable views).Refunds where
  deallocates hthrifty _ hw := hw.deallocates (h hthrifty)
  deallocate := indifferent_probing _
  getErrorName := indifferent_probing _

namespace LoaderAccess

/-! ### Views -/

/-- A new view of a loader is one view more that the library knows. -/
theorem returns_new (ref : JvmRef) (owned : Bool) :
    Returns ((probing w₀ thrifty reliable views).Balance refs blocks thrown) (new ref owned)
      fun l => (probing w₀ thrifty reliable (⟨l, ref, owned⟩ :: views)).Balance refs blocks thrown := by
  intro s hs
  refine ⟨s.world.loaderViews.size, _, rfl, balance_of_loaderViews hs fun v hv => ?_⟩
  rcases List.mem_cons.1 hv with rfl | hv
  · exact ⟨none, Array.getElem?_push_size⟩
  · obtain ⟨description, hview⟩ := hs.keeps.views v hv
    obtain ⟨hlt, -⟩ := Array.getElem?_eq_some_iff.1 hview
    refine ⟨description, ?_⟩
    rw [← hview, Array.getElem?_eq_getElem hlt]
    exact Array.getElem?_push_lt hlt

/-- A loader is described at no expense, and what is found is kept with its view. -/
theorem returns_description (l : LoaderId) :
    Returns ((probing w₀ thrifty reliable views).Balance refs blocks False) (description hook l)
      fun _ => (probing w₀ thrifty reliable views).Balance refs blocks False := by
  have hkeep (found : LoaderDescription) :
      Returns ((probing w₀ thrifty reliable views).Balance refs blocks False)
        (Act.modifyWorld fun w => { w with
          loaderViews := w.loaderViews.modify l fun v => { v with description := some found } })
        fun _ => (probing w₀ thrifty reliable views).Balance refs blocks False := by
    intro s hs
    refine ⟨(), _, rfl, balance_of_loaderViews hs fun v hv => ?_⟩
    obtain ⟨description, hview⟩ := hs.keeps.views v hv
    rw [HeldView.IsIn]
    simp only [Array.getElem?_modify, hview]
    split
    · exact ⟨some found, rfl⟩
    · exact ⟨description, rfl⟩
  refine safe_world.returns.bind fun w => ?_
  split
  · exact returns_pure fun _ hs => hs
  · exact (returns_ref l).bind fun r => (returns_describe r).bind fun found =>
      (hkeep found).bind fun _ => returns_pure fun _ hs => hs

/-- **A view that is given up:** what is owed with it is given back. -/
theorem returns_release (v : HeldView) (hv : v ∈ views) :
    Returns ((probing w₀ thrifty reliable views).Balance (v.owed ++ refs) blocks thrown)
      (release v.id) fun _ => (probing w₀ thrifty reliable views).Balance refs blocks thrown := by
  intro s hs
  obtain ⟨description, hview⟩ := hs.keeps.views v hv
  rw [release, run_bind_ok run_world, hview]
  dsimp only
  cases howned : v.owned with
  | false =>
    rw [HeldView.owed, howned] at hs
    exact ⟨(), s, rfl, hs⟩
  | true =>
    rw [HeldView.owed, howned] at hs
    exact NativeInterface.returns_drop (some v.ref) s hs

/-! ### Loaders above one another -/

/-- Nothing is logged above the bootstrap loader. -/
theorem returns_logLoaders_none (r : Rule) {isParent : Bool} (depth : Nat) :
    Returns ((probing w₀ thrifty reliable views).Balance refs blocks False)
      (Pipeline.logLoaders (ops hook) r isParent depth none)
      fun _ => (probing w₀ thrifty reliable views).Balance refs blocks False := by
  cases depth <;> exact (isWorldly_balance.safe_log _ _ _).returns

section Calm

variable (hopened : w₀.jvm.exceptionPending = false)
  (hnested : ∀ views, (probing w₀ thrifty reliable views).Undisturbed hook)
include hopened hnested

/-- **A parent** is in hand once it is found. -/
theorem returns_parent (l : LoaderId) :
    Returns ((probing w₀ thrifty reliable views).Balance refs blocks False) (parent hook l)
      fun answer s => (∃ v : HeldView, answer = .ok (some v.id)
          ∧ (probing w₀ thrifty reliable (v :: views)).Balance (v.owed ++ refs) blocks False s)
        ∨ ((∀ above, answer ≠ .ok (some above))
          ∧ (probing w₀ thrifty reliable views).Balance refs blocks False s) := by
  refine returns_requireMethods.bind fun ids => ?_
  rcases ids with e | ids
  · exact returns_pure fun _ hs => .inr ⟨nofun, hs⟩
  · refine (returns_ref l).bind fun r => ?_
    refine (returns_callMethod hopened (hnested views) _ ids.getParent _ _).bind fun above => ?_
    rcases above with e | _ | above
    · exact returns_pure fun _ hs => .inr ⟨nofun, hs⟩
    · exact returns_pure fun _ hs => .inr ⟨nofun, hs⟩
    · exact (returns_new above true).bind fun l => returns_pure fun _ hs =>
        .inl ⟨⟨l, above, true⟩, rfl, hs⟩

/-- One loader of a chain, if it is given up in the end, and those above it are. -/
theorem returns_logLoaders_succ (r : Rule) (isParent : Bool) {depth : Nat} (owed : List JvmRef)
    (l : LoaderId)
    (hrelease : ∀ views' refs, (∀ v ∈ views, v ∈ views') →
      Returns ((probing w₀ thrifty reliable views').Balance (owed ++ refs) blocks False)
        (if isParent then release l else pure ())
        fun _ => (probing w₀ thrifty reliable views').Balance refs blocks False)
    (habove : ∀ v views refs, v ∈ views →
      Returns ((probing w₀ thrifty reliable views).Balance (v.owed ++ refs) blocks False)
        (Pipeline.logLoaders (ops hook) r true depth (some v.id))
        fun _ => (probing w₀ thrifty reliable views).Balance refs blocks False) :
    Returns ((probing w₀ thrifty reliable views).Balance (owed ++ refs) blocks False)
      (Pipeline.logLoaders (ops hook) r isParent (depth + 1) (some l))
      fun _ => (probing w₀ thrifty reliable views).Balance refs blocks False := by
  have hlog (level : Level) (message : String) (fields : List (String × String))
      {refs : List JvmRef} :
      Returns ((probing w₀ thrifty reliable views).Balance refs blocks False)
        (Act.log level message fields : Act Library Unit)
        fun _ => (probing w₀ thrifty reliable views).Balance refs blocks False :=
    (isWorldly_balance.safe_log level message fields).returns
  refine (returns_canLoad hopened (hnested views) l _).bind fun can =>
    (returns_description l).bind fun d => (hlog _ _ _).bind fun _ =>
    (returns_parent hopened hnested l).bind fun answer => ?_
  rintro s (⟨v, rfl, hs⟩ | ⟨hanswer, hs⟩)
  · -- the loader is given up while its parent is in hand already
    have hswap : (v.owed ++ (owed ++ refs)).Perm (owed ++ (v.owed ++ refs)) :=
      List.perm_append_comm_assoc v.owed owed refs
    obtain ⟨⟨⟩, s', hrun, hs'⟩ := Returns.ite_then
      (hrelease (v :: views) (v.owed ++ refs) fun _ => List.mem_cons_of_mem v)
      (habove v (v :: views) refs List.mem_cons_self) s (hs.perm hswap)
    exact ⟨(), s', hrun, balance_of_views_subset (fun _ => List.mem_cons_of_mem v) hs'⟩
  · rcases answer with e | _ | above
    · exact ((hlog _ _ _).bind fun _ => hrelease views refs fun _ hv => hv) s hs
    · exact Returns.ite_then (hrelease views refs fun _ hv => hv) (returns_logLoaders_none r depth) s hs
    · exact absurd rfl (hanswer above)

/-- **The loaders above one** are given up one after the other, and so is the one that is started with if it
is a parent itself. -/
theorem returns_logLoaders_parent (r : Rule) (depth : Nat) (v : HeldView) (hv : v ∈ views) :
    Returns ((probing w₀ thrifty reliable views).Balance (v.owed ++ refs) blocks False)
      (Pipeline.logLoaders (ops hook) r true depth (some v.id))
      fun _ => (probing w₀ thrifty reliable views).Balance refs blocks False := by
  induction depth generalizing v views refs with
  | zero =>
    exact (isWorldly_balance.safe_log _ _ _).returns.bind fun _ => returns_release v hv
  | succ depth ih =>
    exact returns_logLoaders_succ hopened hnested r true v.owed v.id
      (fun views' refs h => returns_release v (h v hv)) fun u views refs hu => ih u hu

/-- The hierarchy of a loader is logged at no expense. -/
theorem returns_logLoaderHierarchy (r : Rule) (loader : Option LoaderId) :
    Returns ((probing w₀ thrifty reliable views).Balance refs blocks False)
      (Pipeline.logLoaderHierarchy (ops hook) r loader)
      fun _ => (probing w₀ thrifty reliable views).Balance refs blocks False := by
  refine (isWorldly_balance.safe_log _ _ _).returns.bind fun _ => ?_
  cases loader with
  | none => exact returns_logLoaders_none r _
  | some l =>
    exact returns_logLoaders_succ hopened hnested r false [] l
      (fun _ _ _ => returns_pure fun _ hs => hs) fun v _ _ hv =>
        returns_logLoaders_parent hopened hnested r _ v hv

/-- Transformers leave the account as it is, whatever comes of them. -/
theorem agreeInUse_ops :
    (ops hook).AgreeInUse ((probing w₀ thrifty reliable views).Balance refs blocks False)
      (ops hook) where
  describe l := (Safe.concur (returns_description l)).agree
  classFile l name := (Safe.concur (returns_classFile hopened (hnested views) l name)).agree
  logHierarchy r loader :=
    (Safe.concur (returns_logLoaderHierarchy hopened hnested r loader)).agree
  load e := (Safe.concur (hnested views refs blocks e)).agree
  extent := rfl

end Calm

end LoaderAccess

/-! ### Classes that are loaded -/

/-- The hook leaves an account as it is, but for the block that it hands back. -/
def Account.Admits (acc : Account) (hook : LoadHook) : Prop :=
  ∀ refs blocks e, Returns (acc.Balance refs blocks False) (hook e) fun out =>
    acc.Balance refs ((out.map fun f => f.block.number).toList ++ blocks) False

/-- A hook that does nothing is admitted by every account. -/
theorem admits_idle {acc : Account} : acc.Admits LoadHook.idle :=
  fun _ _ _ => returns_pure fun _ hs => hs

/-- A block that is handed back is freed by the JVM. -/
theorem undisturbed_probing (h : (probing w₀ thrifty reliable views).Admits hook) :
    (probing w₀ thrifty reliable views).Undisturbed hook := by
  intro refs blocks e
  have hfire (e : LoadEvent) :
      Returns ((probing w₀ thrifty reliable views).Balance refs blocks False)
        (ClassLoading.fireLoad hook e)
        fun _ => (probing w₀ thrifty reliable views).Balance refs blocks False := by
    refine returns_vm.bind fun vm => ?_
    split
    · refine (h refs blocks e).bind fun out => ?_
      cases out with
      | none => exact returns_pure fun _ hs => hs
      | some f => exact (returns_freeBlock f.block).bind fun _ => returns_pure fun _ hs => hs
    · exact returns_pure fun _ hs => hs
  have hpush (c : JvmClass) :
      Returns ((probing w₀ thrifty reliable views).Balance refs blocks False)
        (modifyVm fun vm => { vm with classes := vm.classes.push c })
        fun _ => (probing w₀ thrifty reliable views).Balance refs blocks False :=
    fun s hs => ⟨(), _, rfl, hs.refs, hs.blocks, hs.badReturns, hs.calm, hs.keeps.host,
      hs.keeps.insideHook, hs.keeps.deallocates, hs.keeps.views⟩
  unfold ClassLoading.load
  split
  · exact hfire e
  · exact (hfire _).bind fun woven => (hpush _).bind fun _ => returns_pure fun _ hs => hs

namespace JvmHost

/-- What is handed back is a block in hand, and there is none where nothing is handed back. -/
theorem returns_handBack (hthrifty : thrifty → reliable) (bytes : Bytes) :
    Returns ((probing w₀ thrifty reliable views).Balance refs blocks False) (handBack bytes)
      fun out => (probing w₀ thrifty reliable views).Balance refs
        ((out.map fun f => f.block.number).toList ++ blocks) False := by
  refine (ToolInterface.returns_allocateCopy (indifferent_probing _) bytes).bind fun answer => ?_
  rcases answer with code | block
  · exact (ToolInterface.returns_whenKept_describeError (refunds_probing hthrifty) _ code _ _).bind
      fun _ => returns_pure fun _ hs => hs
  · exact returns_pure fun _ hs => hs

section Calm

variable (hopened : w₀.jvm.exceptionPending = false) (hthrifty : thrifty → reliable)
  (hnested : ∀ views, (probing w₀ thrifty reliable views).Undisturbed hook)
include hopened hnested

/-- Transforming a class that is loaded agrees with itself: the loader that it is asked of is lent, and
nothing is left in hand. -/
theorem agree_transformClass_self (host : ToolHost) (e : LoadEvent) :
    Agree ((probing w₀ thrifty reliable views).Balance refs blocks False)
      (transformClass hook host e) (transformClass hook host e) := by
  have hnew (index : Nat) : Returns ((probing w₀ thrifty reliable views).Balance refs blocks False)
      (LoaderAccess.new (.lent (.loader index)) false)
      fun _ => (probing w₀ thrifty reliable views).Balance refs blocks False :=
    (LoaderAccess.returns_new _ false).mono (fun _ hs => hs) fun _ _ hs =>
      balance_of_views_subset (fun _ => List.mem_cons_of_mem _) hs
  have hpass (bytes : Bytes) (transformers : List Transformer) (loader : Option LoaderId) :
      Agree ((probing w₀ thrifty reliable views).Balance refs blocks False)
        (Transformer.transformAll (LoaderAccess.ops hook) (requestOf e bytes loader) transformers)
        (Transformer.transformAll (LoaderAccess.ops hook) (requestOf e bytes loader) transformers) :=
    Transformer.agree_transformAll isWorldly_balance
      (LoaderAccess.agreeInUse_ops hopened hnested) _ _
  unfold transformClass
  split
  · exact agree_pure _
  · exact agree_pure _
  · dsimp only
    split
    · exact (agree_pure _).bind fun loader => hpass _ _ loader
    · simp only [bind_map_left]
      exact (Safe.concur (hnew _)).agree.bind fun loader => hpass _ _ _

include hthrifty

/-- **A class that is processed** leaves the account as it is, but for the block that is handed back, even
if a transformer panics. -/
theorem returns_processClass (host : ToolHost) (e : LoadEvent) :
    Returns ((probing w₀ thrifty reliable views).Balance refs blocks False)
      (processClass hook host e) fun out => (probing w₀ thrifty reliable views).Balance refs
        ((out.map fun f => f.block.number).toList ++ blocks) False := by
  refine (agree_transformClass_self hopened hnested host e).attempt.safe.returns.bind
    fun outcome => ?_
  rcases outcome with p | _ | bytes
  · exact (isWorldly_balance.safe_log _ _ _).returns.bind fun _ => returns_pure fun _ hs => hs
  · exact returns_pure fun _ hs => hs
  · exact returns_handBack hthrifty bytes

end Calm

/-- **The hook** leaves nothing behind but the block that it hands back. Where it does something, nothing is
lost as long as the JVM takes memory back. -/
theorem admits_loadHook (hopened : w₀.jvm.exceptionPending = false)
    (hthrifty : w₀.host.isSome = true → w₀.insideHook = false → thrifty → reliable) (depth : Nat) :
    (probing w₀ thrifty reliable views).Admits (loadHook depth) := by
  intro refs blocks e s hs
  cases depth with
  | zero => exact ⟨none, s, rfl, hs⟩
  | succ depth =>
    cases hhost : s.world.host with
    | none => exact ⟨none, s, loadHook_of_no_host _ e hhost, hs⟩
    | some host =>
      cases hflag : s.world.insideHook with
      | true => exact ⟨none, s, loadHook_of_insideHook _ e hflag, hs⟩
      | false =>
        have hreliable : thrifty → reliable := by
          refine hthrifty ?_ (hs.keeps.insideHook.symm.trans hflag)
          rw [← hs.keeps.host, hhost]
          rfl
        have hidle : (flagged s true).world.jvm.exceptionPending = false :=
          eq_false_of_ne_true fun h => (hs.calm hopened).2 h
        have hstart : (probing (flagged s true).world thrifty reliable views).Balance [] [] False
            (flagged s true) := balance_probing hs.keeps.deallocates hs.keeps.views
        -- what is done meanwhile has an account of its own
        obtain ⟨block, s', hprocess, -, hrun⟩ := exists_run_loadHook depth e hhost hflag
        obtain ⟨block', s'', hprocess', hs'⟩ :=
          returns_processClass hidle hreliable (fun _ => undisturbed_probing admits_idle) host e _ hstart
        cases hprocess.symm.trans hprocess'
        have hkeeps : Probing w₀ reliable views (flagged s' false).world :=
          ⟨hs'.keeps.host.trans hs.keeps.host, hflag.symm.trans hs.keeps.insideHook,
            hs'.keeps.deallocates, hs'.keeps.views⟩
        have hjvm : (flagged s' false).world.jvm = s'.world.jvm := rfl
        have hsettled := hs.settle hs' rfl id hjvm hkeeps
        rw [List.nil_append, List.append_nil] at hsettled
        exact ⟨block, flagged s' false, hrun, hsettled⟩

end JvmHost

end AdviceWeaver

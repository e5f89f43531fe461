import AdviceWeaver.Library.Loader
import AdviceWeaver.Proofs.Pipeline.Agreement
import AdviceWeaver.Proofs.Session.Triples

/-!
# What the JVM handed out

The JVM hands out local references and blocks of memory; it counts what is given back that is not live,
and what is called while an exception is pending. An account is opened with a JVM at some moment
(`Account`), and says from then on what the library has in hand (`Account.Balance`): the references and
blocks that are live besides those that were so at the opening, and whether an exception may be pending.

Each function of the native interface is entered into the account once. A function that throws has no
reference to hand out, so that both go together: what a call may leave pending depends on what it answers.
Where nothing was pending at the opening, nothing is called that must not be called.

## Main results

* `NativeTable.returns_callObjectMethod` — a method that is called, and a class that is loaded meanwhile.
* `NativeInterface.returns_using_` — a reference that is used is given back.
* `NativeInterface.returns_getText` — so are the characters of a string, in every session.
* `LoaderAccess.returns_describe` — what a loader is can be asked at no expense.
-/

namespace AdviceWeaver

open Act Library

/-! ### Accounts -/

/-- The library without what calls of the native interface change: the identities of methods, and what the
JVM handed out and counted, and the faults that are taken from its script. -/
def Library.script (w : Library) : Library :=
  { w with
    methodIds := none
    jvm := { w.jvm with
      behaviour := { w.jvm.behaviour with faults := fun _ => [] }
      exceptionPending := false
      refs := []
      blocks := []
      handedOut := 0
      badReturns := 0
      callsWhilePending := 0
      calls := [] } }

/-- An account of what a JVM hands out. -/
structure Account where
  /-- The JVM with which the account is opened. -/
  opened : Jvm
  /-- What holds of the library as long as the account is kept. -/
  keeps : Library → Prop
  /-- No block of memory gets lost. -/
  thrifty : Prop
  steady : ∀ w w' : Library, w'.script = w.script → keeps w → keeps w'

/-- What the library has in hand: besides what was live at the opening, these references are live and these
blocks, and perhaps some that were lost. If nothing was pending then, an exception is pending only if one
was thrown, and nothing was called meanwhile. -/
structure Account.Balance (acc : Account) (refs : List JvmRef) (blocks : List Nat) (thrown : Prop)
    (s : Session Library) : Prop where
  refs : s.world.jvm.refs.Perm (refs ++ acc.opened.refs)
  blocks : ∃ lost, s.world.jvm.blocks.Perm (lost ++ (blocks ++ acc.opened.blocks))
    ∧ (acc.thrifty → lost = [])
  badReturns : s.world.jvm.badReturns = acc.opened.badReturns
  calm : acc.opened.exceptionPending = false →
    s.world.jvm.callsWhilePending = acc.opened.callsWhilePending
      ∧ (s.world.jvm.exceptionPending = true → thrown)
  keeps : acc.keeps s.world

/-- What the library has in hand after a call that answers a reference, or throws. -/
def Account.Answered (acc : Account) (refs : List JvmRef) (blocks : List Nat) (o : Option JvmRef) :
    Session Library → Prop :=
  acc.Balance (o.toList ++ refs) blocks (o = none)

variable {α : Type} {acc : Account} {refs : List JvmRef} {blocks : List Nat} {thrown thrown' : Prop}
  {hook : LoadHook} {s s' : Session Library}

namespace Account

/-- What the library has in hand is told by its world alone. -/
theorem isWorldly_balance : Session.IsWorldly (acc.Balance refs blocks thrown) := by
  intro s s' hworld hs
  obtain ⟨hrefs, hblocks, hbad, hcalm, hkeeps⟩ := hs
  rw [← hworld] at hrefs hblocks hbad hcalm hkeeps
  exact ⟨hrefs, hblocks, hbad, hcalm, hkeeps⟩

/-- Less may be said of a pending exception. -/
theorem Balance.mono (hs : acc.Balance refs blocks thrown s) (h : thrown → thrown') :
    acc.Balance refs blocks thrown' s :=
  { hs with calm := fun hopened => ⟨(hs.calm hopened).1, fun hpending =>
      h ((hs.calm hopened).2 hpending)⟩ }

/-- In which order references were handed out makes no difference. -/
theorem Balance.perm {refs' : List JvmRef} (hs : acc.Balance refs blocks thrown s)
    (h : refs.Perm refs') : acc.Balance refs' blocks thrown s :=
  { hs with refs := hs.refs.trans (h.append_right _) }

/-- An account that was opened meanwhile is settled in the first one. -/
theorem Balance.settle {acc' : Account} {refs' : List JvmRef} {blocks' : List Nat}
    {s'' : Session Library} (hs : acc.Balance refs blocks False s)
    (hs' : acc'.Balance refs' blocks' thrown s') (hopened : acc'.opened = s.world.jvm)
    (hthrifty : acc.thrifty → acc'.thrifty) (hjvm : s''.world.jvm = s'.world.jvm)
    (hkeeps : acc.keeps s''.world) :
    acc.Balance (refs' ++ refs) (blocks' ++ blocks) thrown s'' := by
  obtain ⟨lost, hblocks, hlost⟩ := hs.blocks
  obtain ⟨lost', hblocks', hlost'⟩ := hs'.blocks
  have hrefs' := hs'.refs
  have hbad' := hs'.badReturns
  have hcalm' := hs'.calm
  rw [hopened, ← hjvm] at hrefs' hblocks' hbad' hcalm'
  refine ⟨?_, ⟨lost' ++ lost, ?_, fun h => ?_⟩, hbad'.trans hs.badReturns, fun h => ?_, hkeeps⟩
  · rw [List.append_assoc]
    exact hrefs'.trans (hs.refs.append_left refs')
  · have hreorder : (lost' ++ (blocks' ++ (lost ++ (blocks ++ acc.opened.blocks)))).Perm
        (lost' ++ lost ++ (blocks' ++ blocks ++ acc.opened.blocks)) := by
      simp only [List.append_assoc]
      exact (List.perm_append_comm_assoc blocks' lost _).append_left lost'
    exact (hblocks'.trans ((hblocks.append_left blocks').append_left lost')).trans hreorder
  · rw [hlost h, hlost' (hthrifty h), List.append_nil]
  · have hidle : s.world.jvm.exceptionPending = false := eq_false_of_ne_true (hs.calm h).2
    exact ⟨(hcalm' hidle).1.trans (hs.calm h).1, (hcalm' hidle).2⟩

/-- Lines that are left behind are not entered into the account. -/
theorem Balance.calls (hs : acc.Balance refs blocks thrown s)
    (hworld : ∃ calls, s'.world = { s.world with jvm := { s.world.jvm with calls } }) :
    acc.Balance refs blocks thrown s' := by
  obtain ⟨calls, hworld⟩ := hworld
  obtain ⟨hrefs, hblocks, hbad, hcalm, hkeeps⟩ := hs
  refine ⟨?_, ?_, ?_, ?_, ?_⟩ <;> rw [hworld]
  · exact hrefs
  · exact hblocks
  · exact hbad
  · exact hcalm
  · exact acc.steady s.world _ rfl hkeeps

end Account

open Account

/-! ### Steps of the JVM -/

namespace Library

theorem returns_vm {before : Session Library → Prop} : Returns before vm fun _ => before :=
  fun s hs => ⟨s.world.jvm, s, rfl, hs⟩

/-- The JVM that is looked at is the one there is. -/
theorem returns_vm_self {before : Session Library → Prop} :
    Returns before vm fun jvm s => before s ∧ jvm = s.world.jvm :=
  fun s hs => ⟨s.world.jvm, s, rfl, hs, rfl⟩

/-- A line that is left behind changes nothing of the balance. -/
theorem returns_trace_balance (line : String) :
    Returns (acc.Balance refs blocks thrown) (trace line) fun _ => acc.Balance refs blocks thrown :=
  fun _ hs => ⟨(), _, rfl, hs.calls ⟨_, rfl⟩⟩

/-- A reference that is handed out is in hand. -/
theorem returns_newRef (object : JvmObject) :
    Returns (acc.Balance refs blocks thrown) (withVm fun vm => vm.newRef object) fun r s =>
      r.object = object ∧ acc.Balance (r :: refs) blocks thrown s :=
  fun s hs => ⟨_, _, rfl, rfl, hs.refs.cons _, hs.blocks, hs.badReturns, hs.calm,
    acc.steady s.world _ rfl hs.keeps⟩

/-- A block that is handed out is in hand. -/
theorem returns_newBlock (content : Bytes) :
    Returns (acc.Balance refs blocks thrown) (withVm fun vm => vm.newBlock content) fun b s =>
      b.content = content ∧ acc.Balance refs (b.number :: blocks) thrown s := by
  intro s hs
  obtain ⟨lost, hperm, hlost⟩ := hs.blocks
  refine ⟨_, _, rfl, rfl, hs.refs, ⟨lost, ?_, hlost⟩, hs.badReturns, hs.calm,
    acc.steady s.world _ rfl hs.keeps⟩
  exact (hperm.cons _).trans List.perm_middle.symm

/-- A block in hand is live, and freeing it takes it off the account. -/
theorem returns_freeBlock (block : MemoryBlock) :
    Returns (acc.Balance refs (block.number :: blocks) thrown)
      (modifyVm fun vm => vm.freeBlock block) fun _ => acc.Balance refs blocks thrown := by
  intro s hs
  obtain ⟨lost, hperm, hlost⟩ := hs.blocks
  have hfront : s.world.jvm.blocks.Perm (block.number :: (lost ++ (blocks ++ acc.opened.blocks))) :=
    hperm.trans List.perm_middle
  have hlive : block.number ∈ s.world.jvm.blocks := hfront.mem_iff.2 List.mem_cons_self
  have hfree : s.world.jvm.freeBlock block
      = { s.world.jvm with blocks := s.world.jvm.blocks.erase block.number } := if_pos hlive
  have hrest := hfront.erase block.number
  rw [List.erase_cons_head] at hrest
  refine ⟨(), { s with world := { s.world with jvm := s.world.jvm.freeBlock block } }, rfl, ?_⟩
  rw [hfree]
  exact ⟨hs.refs, ⟨lost, hrest, hlost⟩, hs.badReturns, hs.calm, acc.steady s.world _ rfl hs.keeps⟩

end Library

/-! ### Functions of the native interface -/

namespace NativeTable

/-- A call may begin if nothing is pending, and only counts against an account opened with something
pending. -/
theorem returns_begin_ (text : Option String) :
    Returns (acc.Balance refs blocks False) (begin_ text) fun _ => acc.Balance refs blocks False := by
  refine returns_vm_self.bind fun jvm => ?_
  rintro s ⟨hs, rfl⟩
  cases hpending : s.world.jvm.exceptionPending with
  | false =>
    cases text with
    | none => exact ⟨(), s, rfl, hs⟩
    | some line => exact returns_trace_balance line s hs
  | true =>
    -- nothing is promised of an account that was opened with an exception pending
    have hopened : acc.opened.exceptionPending ≠ false := fun h => (hs.calm h).2 hpending
    have hcounted : acc.Balance refs blocks False { s with world := { s.world with jvm :=
        { s.world.jvm with callsWhilePending := s.world.jvm.callsWhilePending + 1 } } } :=
      ⟨hs.refs, hs.blocks, hs.badReturns, fun h => absurd h hopened,
        acc.steady s.world _ rfl hs.keeps⟩
    cases text with
    | none => exact ⟨(), _, rfl, hcounted⟩
    | some line => exact returns_trace_balance line _ hcounted

/-- What is thrown leaves nothing in hand, and may be left alone. -/
theorem returns_throw_bind (x : α) :
    Returns (acc.Balance refs blocks False) (throw_ >>= fun _ => pure x) fun y s =>
      y = x ∧ acc.Balance refs blocks True s :=
  fun s hs => ⟨x, _, rfl, rfl, hs.refs, hs.blocks, hs.badReturns,
    fun hopened => ⟨(hs.calm hopened).1, fun _ => trivial⟩, acc.steady s.world _ rfl hs.keeps⟩

/-- A call that throws answers null, with nothing in hand. -/
theorem returns_throw_ :
    Returns (acc.Balance refs blocks False) throw_ (acc.Answered refs blocks) := by
  intro s hs
  obtain ⟨_, s', hrun, rfl, hs'⟩ := returns_throw_bind (none : Option JvmRef) s hs
  exact ⟨none, s', hrun, hs'.mono fun _ => rfl⟩

/-- A call that answers an object has a reference to it in hand. -/
theorem returns_answer (object : JvmObject) :
    Returns (acc.Balance refs blocks False) (answer object) (acc.Answered refs blocks) :=
  (returns_newRef object).bind fun _ => returns_pure fun _ hs => hs.2.mono False.elim

/-- A call that answers null without a reason. -/
theorem returns_null :
    Returns (acc.Balance refs blocks False) (pure none) (acc.Answered refs blocks) :=
  returns_pure fun _ hs => hs.mono False.elim

/-- Taking the next fault from its script leaves the balance as it is. -/
theorem returns_nextFault (f : NativeFunction) :
    Returns (acc.Balance refs blocks thrown) (withVm fun vm => vm.nextFault f) fun _ =>
      acc.Balance refs blocks thrown :=
  fun s hs => ⟨_, _, rfl, hs.refs, hs.blocks, hs.badReturns, hs.calm, acc.steady s.world _ rfl hs.keeps⟩

/-- A call that may fail leaves nothing in hand where it does, and perhaps an exception pending. -/
theorem returns_mayFail {f : NativeFunction} {nothing : α} {body : Act Library α}
    {post : α → Session Library → Prop}
    (hnothing : ∀ s, acc.Balance refs blocks True s → post nothing s)
    (hbody : Returns (acc.Balance refs blocks False) body post) :
    Returns (acc.Balance refs blocks False) (mayFail f nothing body) post := by
  refine (returns_nextFault f).bind fun fault => ?_
  rcases fault with _ | _ | _
  · exact hbody
  · exact (returns_throw_bind nothing).mono (fun _ hs => hs) fun _ s hs => hs.1 ▸ hnothing s hs.2
  · exact returns_pure fun s hs => hnothing s (hs.mono fun _ => trivial)

/-- A call that may answer null leaves nothing in hand where it does. -/
theorem returns_mayBeNull {f : NativeFunction} {nothing : α} {body : Act Library α}
    {post : α → Session Library → Prop}
    (hnothing : ∀ s, acc.Balance refs blocks False s → post nothing s)
    (hbody : Returns (acc.Balance refs blocks False) body post) :
    Returns (acc.Balance refs blocks False) (mayBeNull f nothing body) post := by
  refine (returns_nextFault f).bind fun fault => ?_
  cases fault with
  | none => exact hbody
  | some fault => exact returns_pure fun s hs => hnothing s hs

/-- A call that answers a reference may fail, and answers null then. -/
theorem returns_mayFail_answered {f : NativeFunction} {body : Act Library (Option JvmRef)}
    (hbody : Returns (acc.Balance refs blocks False) body (acc.Answered refs blocks)) :
    Returns (acc.Balance refs blocks False) (mayFail f none body) (acc.Answered refs blocks) :=
  returns_mayFail (fun _ hs => hs.mono fun _ => rfl) hbody

/-- A class that is found is in hand; one that is not has thrown. -/
theorem returns_findClass (name : String) :
    Returns (acc.Balance refs blocks False) (findClass name) (acc.Answered refs blocks) := by
  refine (returns_begin_ _).bind fun _ => returns_mayFail_answered (returns_vm.bind fun vm => ?_)
  split
  · exact returns_throw_
  · exact returns_answer _

/-- Every object has a class, which is no loader. -/
theorem returns_getObjectClass (o : Option JvmRef) :
    Returns (acc.Balance refs blocks False) (getObjectClass o) fun c s =>
      (∀ number index, c ≠ some ⟨number, .loader index⟩)
        ∧ acc.Balance (c.toList ++ refs) blocks False s := by
  have hclass (number index : Nat) (r : JvmRef) (hr : r.object = classOfObject o) :
      some r ≠ some ⟨number, .loader index⟩ := by
    rintro ⟨⟩
    unfold classOfObject at hr
    split at hr <;> cases hr
  exact returns_vm.bind fun _ => (returns_begin_ _).bind fun _ => (returns_newRef _).bind fun r =>
    returns_pure fun _ ⟨hr, hs⟩ => ⟨fun number index => hclass number index r hr, hs⟩

/-- A method that is looked up is no reference; one that is not found has thrown. -/
theorem returns_getMethodId (c : Option JvmRef) (name signature : String) :
    Returns (acc.Balance refs blocks False) (getMethodId c name signature) fun m =>
      acc.Balance refs blocks (m = none) := by
  refine returns_vm.bind fun _ => (returns_begin_ _).bind fun _ =>
    returns_mayFail (fun _ hs => hs.mono fun _ => rfl) (returns_vm.bind fun vm => ?_)
  split
  · exact (returns_throw_bind none).mono (fun _ hs => hs) fun _ _ ⟨hm, hs⟩ => hs.mono fun _ => hm
  · exact returns_pure fun _ hs => hs.mono False.elim

/-- Whatever a loader answers is in hand, and nothing is in hand where it throws. -/
theorem returns_callLoader (index : Nat) (l : JvmLoader) (m : MethodId) (arg : Option JvmRef) :
    Returns (acc.Balance refs blocks False) (callLoader index l m arg) (acc.Answered refs blocks) := by
  unfold callLoader
  split
  · exact returns_throw_
  split
  · split
    · exact returns_answer _
    · exact returns_null
  split
  · dsimp only
    split
    · exact returns_answer _
    · split
      · exact returns_null
      · exact returns_throw_
  split
  · split
    · exact returns_answer _
    · exact returns_null
  · exact returns_throw_

/-- **A method that is called** answers a reference or throws. Only methods of loaders have classes loaded
meanwhile. -/
theorem returns_callObjectMethod {o : Option JvmRef} (m : MethodId) (arg : Option JvmRef)
    (hnested : (∃ number index, o = some ⟨number, .loader index⟩) →
      ∀ label loader name bytes, Returns (acc.Balance refs blocks False)
        (ClassLoading.loadScripted hook label loader name bytes)
        fun _ => acc.Balance refs blocks False) :
    Returns (acc.Balance refs blocks False) (callObjectMethod hook o m arg)
      (acc.Answered refs blocks) := by
  refine returns_vm.bind fun vm => (returns_begin_ _).bind fun _ => ?_
  split
  · refine returns_mayFail_answered ?_
    split
    · exact returns_throw_
    · split
      · exact returns_null
      · exact returns_answer _
  · next number index =>
    have hcall : Returns (acc.Balance refs blocks False)
        (mayFail .callObjectMethod none (callLoader index (vm.loader index) m arg))
        (acc.Answered refs blocks) := returns_mayFail_answered (returns_callLoader index _ m arg)
    dsimp only
    split
    · split
      · exact (hnested ⟨number, index, rfl⟩ _ _ _ _).bind fun _ => hcall
      · exact hcall
    · exact hcall
  · refine returns_mayFail_answered ?_
    split
    · exact returns_throw_
    · split
      · exact returns_null
      · exact returns_answer _
  · exact returns_throw_

/-- A method without a result has nothing to hand out, and may have thrown. -/
theorem returns_callVoidMethod (o : Option JvmRef) (m : MethodId) :
    Returns (acc.Balance refs blocks False) (callVoidMethod o m) fun _ =>
      acc.Balance refs blocks True := by
  refine returns_vm.bind fun _ => (returns_begin_ _).bind fun _ => returns_mayFail (fun _ hs => hs) ?_
  split
  · split
    · exact (returns_throw_bind _).mono (fun _ hs => hs) fun _ _ hs => hs.2
    · exact returns_pure fun _ hs => hs.mono False.elim
  · exact returns_pure fun _ hs => hs.mono False.elim

/-- A string that is made is in hand; one that is not has thrown. -/
theorem returns_newString (text : String) :
    Returns (acc.Balance refs blocks False) (newString text) (acc.Answered refs blocks) := by
  refine (returns_begin_ _).bind fun _ => returns_mayFail_answered (returns_vm.bind fun vm => ?_)
  split
  · exact returns_throw_
  · exact returns_answer _

/-- Characters of a string are a block in hand, and there is none where null is answered. -/
theorem returns_getStringChars (o : Option JvmRef) :
    Returns (acc.Balance refs blocks False) (getStringChars o) fun b =>
      acc.Balance refs ((b.map MemoryBlock.number).toList ++ blocks) False := by
  refine returns_vm.bind fun _ => (returns_begin_ _).bind fun _ =>
    returns_mayBeNull (fun _ hs => hs) ?_
  split
  · refine returns_vm.bind fun vm => ?_
    split
    · exact returns_pure fun _ hs => hs
    · exact (returns_newBlock _).bind fun _ => returns_pure fun _ hs => hs.2
  · exact returns_pure fun _ hs => hs

/-- Characters that are given back are off the account. -/
theorem returns_releaseStringChars (block : MemoryBlock) :
    Returns (acc.Balance refs (block.number :: blocks) False) (releaseStringChars block) fun _ =>
      acc.Balance refs blocks False :=
  (returns_begin_ none).bind fun _ => returns_freeBlock block

/-- Asking for a length leaves the balance as it is. -/
theorem returns_getArrayLength (o : Option JvmRef) :
    Returns (acc.Balance refs blocks False) (getArrayLength o) fun _ =>
      acc.Balance refs blocks False := by
  refine (returns_begin_ none).bind fun _ =>
    returns_mayBeNull (fun _ hs => hs) (returns_vm.bind fun vm => ?_)
  split
  · exact returns_pure fun _ hs => hs
  · split <;> exact returns_pure fun _ hs => hs

/-- Copying octets leaves the balance as it is, and may have thrown. -/
theorem returns_getByteArrayRegion (o : Option JvmRef) (start length : Int) :
    Returns (acc.Balance refs blocks False) (getByteArrayRegion o start length) fun _ =>
      acc.Balance refs blocks True := by
  refine returns_vm.bind fun _ => (returns_begin_ _).bind fun _ => returns_mayFail (fun _ hs => hs) ?_
  split
  · split
    · exact (returns_throw_bind _).mono (fun _ hs => hs) fun _ _ hs => hs.2
    · exact returns_pure fun _ hs => hs.mono False.elim
  · exact (returns_throw_bind _).mono (fun _ hs => hs) fun _ _ hs => hs.2

/-- A reference that is in hand is live, and giving it back takes it off the account, also with an
exception pending. -/
theorem returns_deleteLocalRef (r : JvmRef) :
    Returns (acc.Balance (r :: refs) blocks thrown) (deleteLocalRef (some r)) fun _ =>
      acc.Balance refs blocks thrown := by
  intro s hs
  have hlive : r ∈ s.world.jvm.refs := hs.refs.mem_iff.2 List.mem_cons_self
  have hdelete : s.world.jvm.deleteRef (some r)
      = { s.world.jvm with refs := s.world.jvm.refs.erase r } := if_pos hlive
  have hrest := hs.refs.erase r
  rw [List.cons_append, List.erase_cons_head] at hrest
  refine ⟨(), { s with world := { s.world with jvm := s.world.jvm.deleteRef (some r) } }, rfl, ?_⟩
  rw [hdelete]
  exact ⟨hrest, hs.blocks, hs.badReturns, hs.calm, acc.steady s.world _ rfl hs.keeps⟩

end NativeTable

/-! ### Using the native interface -/

namespace NativeInterface

open NativeTable

/-- **An exception that is taken** was thrown, and is pending no more. -/
theorem returns_takeException :
    Returns (acc.Balance refs blocks thrown) takeException fun taken s =>
      (acc.opened.exceptionPending = false → taken = true → thrown)
        ∧ acc.Balance refs blocks False s := by
  have hcheck : Returns (acc.Balance refs blocks thrown) exceptionCheck fun pending s =>
      acc.Balance refs blocks thrown s ∧ pending = s.world.jvm.exceptionPending :=
    returns_vm_self.bind fun _ => returns_pure fun _ ⟨hs, hjvm⟩ => ⟨hs, by rw [hjvm]⟩
  have hclear : Returns (acc.Balance refs blocks thrown) exceptionClear fun _ =>
      acc.Balance refs blocks False :=
    (returns_trace_balance _).bind fun _ s hs => ⟨(), _, rfl, hs.refs, hs.blocks, hs.badReturns,
      fun hopened => ⟨(hs.calm hopened).1, Bool.false_ne_true⟩, acc.steady s.world _ rfl hs.keeps⟩
  refine hcheck.bind fun pending => ?_
  rintro s ⟨hs, hpending⟩
  cases pending with
  | false =>
    have hidle : s.world.jvm.exceptionPending = true → False := by simp [← hpending]
    refine ⟨false, s, rfl, fun _ h => Bool.noConfusion h, ?_⟩
    exact ⟨hs.refs, hs.blocks, hs.badReturns, fun hopened => ⟨(hs.calm hopened).1, hidle⟩, hs.keeps⟩
  | true =>
    obtain ⟨⟨⟩, s', hrun, hs'⟩ := hclear s hs
    exact ⟨true, s', run_bind_ok hrun, fun hopened _ => (hs.calm hopened).2 hpending.symm, hs'⟩

/-- Where null was answered the pending exception is cleared, so that none is left in either case. -/
theorem returns_orClear (answer : Option α) :
    Returns (acc.Balance refs blocks (answer = none)) (orClear answer) fun a s =>
      a = answer ∧ acc.Balance refs blocks False s := by
  cases answer with
  | none =>
    exact returns_takeException.bind fun _ => returns_pure fun _ hs => ⟨rfl, hs.2⟩
  | some a => exact returns_pure fun _ hs => ⟨rfl, hs.mono nofun⟩

/-- An answer of which the exception is cleared. -/
theorem returns_orClear_of_answered (o : Option JvmRef) :
    Returns (acc.Answered refs blocks o) (orClear o) fun c =>
      acc.Balance (c.toList ++ refs) blocks False :=
  (returns_orClear o).mono (fun _ hs => hs) fun _ _ ⟨ho, hs⟩ => ho ▸ hs

/-- A class that is found is in hand, and no exception is pending. -/
theorem returns_findClass (name : String) :
    Returns (acc.Balance refs blocks False) (findClass name) fun c =>
      acc.Balance (c.toList ++ refs) blocks False := by
  unfold findClass
  split
  · exact (NativeTable.returns_findClass name).bind fun o => returns_orClear_of_answered o
  · exact returns_pure fun _ hs => hs

/-- A method that is looked up leaves nothing in hand and no exception pending. -/
theorem returns_getMethodId (c : Option JvmRef) (name signature : String) :
    Returns (acc.Balance refs blocks False) (getMethodId c name signature) fun _ =>
      acc.Balance refs blocks False := by
  unfold getMethodId
  split
  · exact (NativeTable.returns_getMethodId c name signature).bind fun m =>
      (returns_orClear m).mono (fun _ hs => hs) fun _ _ hs => hs.2
  · exact returns_pure fun _ hs => hs

/-- A string that is made is in hand, and no exception is pending. -/
theorem returns_newString (text : String) :
    Returns (acc.Balance refs blocks False) (newString text) fun r =>
      acc.Balance (r.toList ++ refs) blocks False := by
  unfold newString
  split
  · exact (NativeTable.returns_newString text).bind fun o => returns_orClear_of_answered o
  · exact returns_pure fun _ hs => hs

/-- **The characters of a string** are given back as soon as they are read. -/
theorem returns_getText (o : Option JvmRef) :
    Returns (acc.Balance refs blocks False) (getText o) fun _ => acc.Balance refs blocks False := by
  unfold getText
  split
  · exact returns_pure fun _ hs => hs
  · refine (returns_getStringChars o).bind fun chars => ?_
    cases chars with
    | none => exact returns_pure fun _ hs => hs
    | some block =>
      exact (returns_releaseStringChars block).bind fun _ => returns_pure fun _ hs => hs

/-- Octets of an array are read at no expense. -/
theorem returns_getBytes (o : Option JvmRef) :
    Returns (acc.Balance refs blocks False) (getBytes o) fun _ => acc.Balance refs blocks False := by
  unfold getBytes
  split
  · exact returns_pure fun _ hs => hs
  · refine (returns_getArrayLength o).bind fun length =>
      (returns_getByteArrayRegion o 0 length).bind fun bytes =>
      returns_takeException.bind fun taken => ?_
    cases taken <;> exact returns_pure fun _ hs => hs.2

/-- A reference that may be null is given back where it is not. -/
theorem returns_drop (o : Option JvmRef) :
    Returns (acc.Balance (o.toList ++ refs) blocks thrown) (drop o) fun _ =>
      acc.Balance refs blocks thrown := by
  cases o with
  | none => exact returns_pure fun _ hs => hs
  | some r => exact returns_deleteLocalRef r

/-- **A reference that is used** is given back, whatever comes of its use. -/
theorem returns_using_ (o : Option JvmRef) {use : Act Library α}
    (huse : Returns (acc.Balance (o.toList ++ refs) blocks thrown) use fun _ =>
      acc.Balance (o.toList ++ refs) blocks thrown') :
    Returns (acc.Balance (o.toList ++ refs) blocks thrown) (using_ o use) fun _ =>
      acc.Balance refs blocks thrown' :=
  huse.bind fun _ => (returns_drop o).bind fun _ => returns_pure fun _ hs => hs

end NativeInterface

/-! ### Asking loaders -/

/-- Classes that are loaded meanwhile leave an account as it is. -/
def Account.Undisturbed (acc : Account) (hook : LoadHook) : Prop :=
  ∀ refs blocks e, Returns (acc.Balance refs blocks False) (ClassLoading.load hook e) fun _ =>
    acc.Balance refs blocks False

/-- Then so does a class of a loader's script. -/
theorem Account.Undisturbed.loadScripted (h : acc.Undisturbed hook) (refs : List JvmRef)
    (blocks : List Nat) (label : String) (loader : Option Nat) (name : String) (bytes : Bytes) :
    Returns (acc.Balance refs blocks False) (ClassLoading.loadScripted hook label loader name bytes)
      fun _ => acc.Balance refs blocks False :=
  (h refs blocks ⟨false, loader, some (Text.Utf8.encode name), some bytes, bytes.length⟩).bind
    fun _ => returns_trace_balance _

namespace LoaderAccess

open NativeInterface

/-- Looking up the methods leaves nothing in hand, however many of them are missing. -/
theorem returns_lookUpMethods (classClass loaderClass streamClass : Option JvmRef) :
    Returns (acc.Balance refs blocks False) (lookUpMethods classClass loaderClass streamClass)
      fun _ => acc.Balance refs blocks False := by
  have hget (c : Option JvmRef) (name signature : String) :
      Returns (acc.Balance refs blocks False) (NativeInterface.getMethodId c name signature)
        fun _ => acc.Balance refs blocks False :=
    NativeInterface.returns_getMethodId c name signature
  exact (hget _ _ _).bind fun _ => (hget _ _ _).bind fun _ => (hget _ _ _).bind fun _ =>
    (hget _ _ _).bind fun _ => (hget _ _ _).bind fun _ => (hget _ _ _).bind fun _ =>
    returns_pure fun _ hs => hs

/-- What uses a class by its name gives it back. -/
theorem returns_withClass (name : String) {use : Option JvmRef → Act Library (Option α)}
    (huse : ∀ c refs, Returns (acc.Balance refs blocks False) (use c) fun _ =>
      acc.Balance refs blocks False) :
    Returns (acc.Balance refs blocks False) (withClass name use) fun _ =>
      acc.Balance refs blocks False := by
  refine (NativeInterface.returns_findClass name).bind fun found => ?_
  cases found with
  | none => exact returns_pure fun _ hs => hs
  | some c => exact returns_using_ (some c) (huse (some c) _)

/-- The classes in which the methods are looked up are given back, whichever of them are there. -/
theorem returns_methodIds :
    Returns (acc.Balance refs blocks False) methodIds fun _ => acc.Balance refs blocks False := by
  have hlookUp : Returns (acc.Balance refs blocks False)
      (withClass "java/lang/Class" fun classClass =>
        withClass "java/lang/ClassLoader" fun loaderClass =>
          withClass "java/io/InputStream" fun streamClass =>
            return some (← lookUpMethods classClass loaderClass streamClass))
      fun _ => acc.Balance refs blocks False :=
    returns_withClass _ fun c _ => returns_withClass _ fun l _ => returns_withClass _ fun s _ =>
      (returns_lookUpMethods c l s).bind fun _ => returns_pure fun _ hs => hs
  have hkeep (found : Option MethodIds) : Returns (acc.Balance refs blocks False)
      (Act.modifyWorld fun w => { w with methodIds := found })
      fun _ => acc.Balance refs blocks False :=
    fun s hs => ⟨(), _, rfl, hs.refs, hs.blocks, hs.badReturns, hs.calm,
      acc.steady s.world _ rfl hs.keeps⟩
  refine safe_world.returns.bind fun w => ?_
  split
  · exact returns_pure fun _ hs => hs
  · refine hlookUp.bind fun found => ?_
    cases found with
    | none => exact returns_pure fun _ hs => hs
    | some ids => exact (hkeep _).bind fun _ => returns_pure fun _ hs => hs

/-- The methods are looked up at no expense, again or for the first time. -/
theorem returns_requireMethods :
    Returns (acc.Balance refs blocks False) requireMethods fun _ =>
      acc.Balance refs blocks False := by
  refine returns_methodIds.bind fun found => ?_
  cases found <;> exact returns_pure fun _ hs => hs

/-- **What a loader is** can be asked at no expense, whatever fails on the way. No class is loaded meanwhile:
only the class of the loader is called. -/
theorem returns_describe (loader : JvmRef) :
    Returns (acc.Balance refs blocks False) (describe hook loader) fun _ =>
      acc.Balance refs blocks False := by
  refine returns_methodIds.bind fun ids => ?_
  split
  · exact returns_pure fun _ hs => hs
  · refine (NativeTable.returns_getObjectClass _).bind fun c => ?_
    rintro s ⟨hclass, hs⟩
    refine returns_using_ c ?_ s hs
    refine (NativeTable.returns_callObjectMethod _ none ?_).bind fun name => ?_
    · rintro ⟨number, index, hloader⟩
      exact absurd hloader (hclass number index)
    refine returns_using_ name ?_
    refine returns_takeException.bind fun taken => ?_
    cases taken with
    | true => exact returns_pure fun _ hs => hs.2
    | false =>
      refine ((returns_getText name).mono (fun _ hs => hs.2) fun _ _ hs => hs).bind fun text => ?_
      cases text <;> exact returns_pure fun _ hs => hs

/-- The reference of a loader is told without a call. -/
theorem returns_ref {before : Session Library → Prop} (l : LoaderId) :
    Returns before (ref l) fun _ => before :=
  safe_world.returns.bind fun _ => returns_pure fun _ hs => hs

/-- What uses a string gives it back. -/
theorem returns_withString (text shown : String)
    {use : Option JvmRef → Act Library (Except LoaderError α)}
    (huse : ∀ s refs, Returns (acc.Balance refs blocks False) (use s) fun _ =>
      acc.Balance refs blocks False) :
    Returns (acc.Balance refs blocks False) (withString text shown use) fun _ =>
      acc.Balance refs blocks False := by
  refine (NativeInterface.returns_newString text).bind fun made => ?_
  cases made with
  | none => exact returns_pure fun _ hs => hs
  | some s => exact returns_using_ (some s) (huse (some s) _)

/-- A stream is closed at no expense, also if closing it throws. -/
theorem returns_closeStream (ids : MethodIds) (stream : JvmRef) :
    Returns (acc.Balance refs blocks False) (closeStream ids stream) fun _ =>
      acc.Balance refs blocks False := by
  unfold closeStream
  split
  · exact (NativeTable.returns_callVoidMethod _ _).bind fun _ => returns_takeException.bind fun _ =>
      returns_pure fun _ hs => hs.2
  · exact returns_pure fun _ hs => hs

/-- The references that an answer hands out. -/
def handed : Except LoaderError (Option JvmRef) → List JvmRef
  | .ok o => o.toList
  | .error _ => []

section Calm

variable (hopened : acc.opened.exceptionPending = false) (hnested : acc.Undisturbed hook)
include hopened hnested

/-- **A method that is called** hands a reference out or fails, but not both. -/
theorem returns_callMethod (o : Option JvmRef) (m : Option MethodId) (name : String)
    (arg : Option JvmRef) :
    Returns (acc.Balance refs blocks False) (callMethod hook o m name arg) fun answer =>
      acc.Balance (handed answer ++ refs) blocks False := by
  cases m with
  | none => exact returns_pure fun _ hs => hs
  | some m =>
    refine (NativeTable.returns_callObjectMethod m arg fun _ => hnested.loadScripted refs blocks).bind
      fun result => returns_takeException.bind fun taken => ?_
    cases taken with
    | false => exact returns_pure fun _ hs => hs.2
    | true =>
      refine returns_pure fun _ ⟨hthrown, hs⟩ => ?_
      rw [hthrown hopened rfl] at hs
      exact hs

/-- Asking a loader for a class leaves nothing in hand, whether it has the class, has not or throws. -/
theorem returns_canLoad (l : LoaderId) (name : String) :
    Returns (acc.Balance refs blocks False) (canLoad hook l name) fun _ =>
      acc.Balance refs blocks False := by
  refine returns_requireMethods.bind fun ids => ?_
  rcases ids with e | ids
  · exact returns_pure fun _ hs => hs
  · refine returns_withString name name fun arg refs => (returns_ref l).bind fun r => ?_
    refine (returns_callMethod hopened hnested _ ids.loadClass _ _).bind fun found => ?_
    rcases found with e | c
    · cases e <;> exact returns_pure fun _ hs => hs
    · exact (returns_drop c).bind fun _ => returns_pure fun _ hs => hs

/-- Reading a stream leaves nothing in hand but what there was. -/
theorem returns_readStream (ids : MethodIds) (stream : JvmRef) :
    Returns (acc.Balance refs blocks False) (readStream hook ids stream) fun _ =>
      acc.Balance refs blocks False := by
  refine (returns_callMethod hopened hnested _ ids.readAllBytes _ _).bind fun array => ?_
  rcases array with e | array
  · exact returns_pure fun _ hs => hs
  · exact returns_using_ array ((returns_getBytes array).bind fun _ => returns_pure fun _ hs => hs)

/-- Asking a loader for the bytes of a class leaves nothing in hand, wherever it stops on the way. -/
theorem returns_classFile (l : LoaderId) (name : String) :
    Returns (acc.Balance refs blocks False) (classFile hook l name) fun _ =>
      acc.Balance refs blocks False := by
  refine returns_requireMethods.bind fun ids => ?_
  rcases ids with e | ids
  · exact returns_pure fun _ hs => hs
  · refine returns_withString (name ++ ".class") name fun arg refs => (returns_ref l).bind fun r => ?_
    refine (returns_callMethod hopened hnested _ ids.getResourceAsStream _ _).bind fun found => ?_
    rcases found with e | _ | stream
    · exact returns_pure fun _ hs => hs
    · exact returns_pure fun _ hs => hs
    · exact returns_using_ (some stream) ((returns_readStream hopened hnested ids stream).bind
        fun _ => (returns_closeStream ids stream).bind fun _ => returns_pure fun _ hs => hs)

end Calm

end LoaderAccess

end AdviceWeaver

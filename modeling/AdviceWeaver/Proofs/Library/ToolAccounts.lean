import AdviceWeaver.Jvm.ToolInterface
import AdviceWeaver.Proofs.Library.Accounts

/-!
# Memory of the tool interface

The functions of the tool interface hand out blocks of memory, and end with the codes that the script has
for them. Each call takes one code; whether that matters is up to what an account keeps
(`Account.Indifferent`). A block that is read is given back at once. Only if the JVM fails to take it, it
is lost, so that nothing is lost as long as `Deallocate` succeeds (`Jvm.Deallocates`).

## Main results

* `ToolTable.returns_call_of`, `ToolTable.returns_call` — a call, by what it does to the script.
* `ToolInterface.returns_takeText` — a text that is read.
* `ToolInterface.returns_describeError` — describing a failure.
-/

namespace AdviceWeaver

open Act Library Account

variable {α : Type} {acc : Account} {refs : List JvmRef} {blocks : List Nat} {thrown : Prop}

/-! ### Codes -/

namespace Jvm

/-- The JVM with one code less for a function. -/
def codeTaken (jvm : Jvm) (f : ToolFunction) : Jvm :=
  { jvm with behaviour := { jvm.behaviour with
      codes := fun g => if g = f then (jvm.behaviour.codes f).tail else jvm.behaviour.codes g } }

/-- A code that is taken is gone from those of its function. -/
theorem codes_codeTaken_self (jvm : Jvm) (f : ToolFunction) :
    (jvm.codeTaken f).behaviour.codes f = (jvm.behaviour.codes f).tail :=
  if_pos rfl

/-- The codes of the other functions stay. -/
theorem codes_codeTaken_of_ne (jvm : Jvm) {f g : ToolFunction} (h : g ≠ f) :
    (jvm.codeTaken f).behaviour.codes g = jvm.behaviour.codes g :=
  if_neg h

/-- The next code of a function is the first that is left, or that of success. -/
theorem nextCode_eq (jvm : Jvm) (f : ToolFunction) :
    jvm.nextCode f = ((jvm.behaviour.codes f).headD 0, jvm.codeTaken f) := by
  unfold nextCode codeTaken
  cases hcodes : jvm.behaviour.codes f with
  | nil =>
    have hsame : (fun g => if g = f then [] else jvm.behaviour.codes g) = jvm.behaviour.codes := by
      funext g
      split
      · next h => rw [h, hcodes]
      · rfl
    simp [hsame]
  | cons code rest => rfl

/-- Memory that is given back is taken back. -/
def Deallocates (jvm : Jvm) : Prop :=
  jvm.missing.contains .deallocate = false ∧ ∀ code ∈ jvm.behaviour.codes .deallocate, code = 0

/-- The next time a block is deallocated does not fail. -/
theorem Deallocates.headD {jvm : Jvm} (h : jvm.Deallocates) :
    (jvm.behaviour.codes .deallocate).headD 0 = 0 := by
  cases hcodes : jvm.behaviour.codes .deallocate with
  | nil => rfl
  | cons code rest => exact h.2 code (hcodes ▸ List.mem_cons_self)

/-- A JVM that deallocates goes on to do so, whichever code is taken. -/
theorem Deallocates.codeTaken {jvm : Jvm} (h : jvm.Deallocates) (f : ToolFunction) :
    (jvm.codeTaken f).Deallocates := by
  refine ⟨h.1, fun code hcode => h.2 code ?_⟩
  simp only [Jvm.codeTaken] at hcode
  split at hcode
  · next hf => exact hf ▸ List.mem_of_mem_tail hcode
  · exact hcode

end Jvm

namespace Account

/-- It does not matter to the account how many codes are left for a function. -/
def Indifferent (acc : Account) (f : ToolFunction) : Prop :=
  ∀ w : Library, acc.keeps w → acc.keeps { w with jvm := w.jvm.codeTaken f }

/-- The account allows for memory that is given back, and for failures that are described. -/
structure Refunds (acc : Account) : Prop where
  deallocates : acc.thrifty → ∀ w, acc.keeps w → w.jvm.Deallocates
  deallocate : acc.Indifferent .deallocate
  getErrorName : acc.Indifferent .getErrorName

/-- A code that is taken is not entered into an account that does not look at it. -/
theorem Balance.codeTaken {f : ToolFunction} {s : Session Library}
    (hf : acc.Indifferent f) (hs : acc.Balance refs blocks thrown s) :
    acc.Balance refs blocks thrown { s with world := { s.world with jvm := s.world.jvm.codeTaken f } } :=
  ⟨hs.refs, hs.blocks, hs.badReturns, hs.calm, hf s.world hs.keeps⟩

end Account

/-! ### Calls -/

namespace ToolTable

/-- **A call**, by what is the case when the function is at work: one code has been taken from the script,
and perhaps a line was left. -/
theorem returns_call_of {f : ToolFunction} {text : Option String} {body : Act Library (ToolAnswer α)}
    {before : Session Library → Prop} {post : ToolAnswer α → Session Library → Prop}
    (called : ErrorCode → Session Library → Prop)
    (hmissing : ∀ s, before s → s.world.jvm.missing.contains f = true →
      post (.error ErrorCode.notAvailable) s)
    (hcalled : ∀ (s : Session Library) (calls : List String), before s →
      s.world.jvm.missing.contains f = false →
      called ((s.world.jvm.behaviour.codes f).headD 0)
        { s with world := { s.world with jvm := { s.world.jvm.codeTaken f with calls } } })
    (hfail : ∀ code s, called code s → code ≠ 0 → post (.error code) s)
    (hbody : Returns (called 0) body post) :
    Returns before (call f text body) post := by
  have hrest (code : ErrorCode) :
      Returns (called code) (if code = 0 then body else return .error code) post := by
    split
    · next h => exact h ▸ hbody
    · next h => exact returns_pure fun s hs => hfail code s hs h
  refine returns_vm_self.bind fun jvm => ?_
  rintro s ⟨hs, rfl⟩
  cases hthere : s.world.jvm.missing.contains f with
  | true => exact ⟨_, s, rfl, hmissing s hs hthere⟩
  | false =>
    have hcode : (withVm fun vm => vm.nextCode f).run s
        = (.ok ((s.world.jvm.behaviour.codes f).headD 0),
          { s with world := { s.world with jvm := s.world.jvm.codeTaken f } }) := by
      rw [← (Prod.mk.inj (s.world.jvm.nextCode_eq f)).1, ← (Prod.mk.inj (s.world.jvm.nextCode_eq f)).2]
      rfl
    dsimp only
    rw [if_neg Bool.false_ne_true, run_bind_ok hcode]
    cases text with
    | none => exact hrest _ _ (hcalled s s.world.jvm.calls hs hthere)
    | some line => exact hrest _ _ (hcalled s _ hs hthere)

/-- A call that may fail with any code. -/
theorem returns_call {f : ToolFunction} {text : Option String} {body : Act Library (ToolAnswer α)}
    {post : ToolAnswer α → Session Library → Prop} (hf : acc.Indifferent f)
    (hfail : ∀ code s, acc.Balance refs blocks thrown s → post (.error code) s)
    (hbody : Returns (acc.Balance refs blocks thrown) body post) :
    Returns (acc.Balance refs blocks thrown) (call f text body) post :=
  returns_call_of (fun _ => acc.Balance refs blocks thrown)
    (fun s hs _ => hfail _ s hs) (fun _ _ hs _ => (hs.codeTaken hf).calls ⟨_, rfl⟩)
    (fun code s hs _ => hfail code s hs) hbody

/-- **A block that is given back** is in hand no more: it is free, unless the JVM fails to take it. -/
theorem returns_deallocate (hacc : acc.Refunds) (block : MemoryBlock) :
    Returns (acc.Balance refs (block.number :: blocks) thrown) (deallocate block) fun answer s =>
      (acc.thrifty → answer = .ok ()) ∧ acc.Balance refs blocks thrown s := by
  -- a block that the JVM does not take is lost
  have hlose (s : Session Library) (hs : acc.Balance refs (block.number :: blocks) thrown s)
      (hthrifty : ¬ acc.thrifty) : acc.Balance refs blocks thrown s := by
    obtain ⟨lost, hperm, -⟩ := hs.blocks
    have hlost : s.world.jvm.blocks.Perm
        ((block.number :: lost) ++ (blocks ++ acc.opened.blocks)) := hperm.trans List.perm_middle
    exact ⟨hs.refs, ⟨_, hlost, fun h => absurd h hthrifty⟩, hs.badReturns, hs.calm, hs.keeps⟩
  refine returns_call_of
    (fun code s => (acc.thrifty → code = 0)
      ∧ acc.Balance refs (block.number :: blocks) thrown s) ?_ ?_ ?_ ?_
  · intro s hs hmissing
    have hthrifty : ¬ acc.thrifty := fun h =>
      Bool.false_ne_true ((hacc.deallocates h s.world hs.keeps).1.symm.trans hmissing)
    exact ⟨fun h => absurd h hthrifty, hlose s hs hthrifty⟩
  · intro s calls hs hthere
    exact ⟨fun h => (hacc.deallocates h s.world hs.keeps).headD,
      (hs.codeTaken hacc.deallocate).calls ⟨calls, rfl⟩⟩
  · intro code s hs hcode
    have hthrifty : ¬ acc.thrifty := fun h => hcode (hs.1 h)
    exact ⟨fun h => absurd h hthrifty, hlose s hs.2 hthrifty⟩
  · exact ((returns_freeBlock block).mono (fun _ hs => hs.2) fun _ _ hs => hs).bind fun _ =>
      returns_pure fun _ hs => ⟨fun _ => rfl, hs⟩

/-- The name of an error is a block in hand, and there is none where the question fails. -/
theorem returns_getErrorName (hacc : acc.Refunds) (code : ErrorCode) :
    Returns (acc.Balance refs blocks thrown) (getErrorName code) fun answer =>
      acc.Balance refs ((answer.toOption.map MemoryBlock.number).toList ++ blocks) thrown := by
  refine returns_call hacc.getErrorName (fun _ _ hs => hs) (returns_vm.bind fun vm => ?_)
  split
  · exact returns_pure fun _ hs => hs
  · exact (returns_newBlock _).bind fun _ => returns_pure fun _ hs => hs.2

/-- A block that is allocated is in hand, and there is none where it is refused or null. -/
theorem returns_allocate (hf : acc.Indifferent .allocate) (size : Int) (content : Bytes) :
    Returns (acc.Balance refs blocks thrown) (allocate size content) fun answer =>
      acc.Balance refs ((answer.toOption.join.map MemoryBlock.number).toList ++ blocks) thrown := by
  refine returns_call hf (fun _ _ hs => hs) (returns_vm.bind fun vm => ?_)
  split
  · exact returns_pure fun _ hs => hs
  · exact (returns_newBlock _).bind fun _ => returns_pure fun _ hs => hs.2

end ToolTable

/-! ### Using the tool interface -/

namespace ToolInterface

open ToolTable

/-- **A text that is read** is the one in the block, which is given back. -/
theorem returns_takeText (hacc : acc.Refunds) (block : MemoryBlock) :
    Returns (acc.Balance refs (block.number :: blocks) thrown) (takeText block) fun answer s =>
      (acc.thrifty → answer = .ok block.text) ∧ acc.Balance refs blocks thrown s := by
  refine (returns_deallocate hacc block).bind fun answer => ?_
  rcases answer with code | ⟨⟩
  · exact returns_pure fun _ hs => ⟨fun h => (nomatch hs.1 h), hs.2⟩
  · exact returns_pure fun _ hs => ⟨fun _ => rfl, hs.2⟩

/-- A copy of some octets is a block in hand, and there is none where it fails. -/
theorem returns_allocateCopy (hf : acc.Indifferent .allocate) (bytes : Bytes) :
    Returns (acc.Balance refs blocks thrown) (allocateCopy bytes) fun answer =>
      acc.Balance refs ((answer.toOption.map MemoryBlock.number).toList ++ blocks) thrown := by
  refine (returns_allocate hf _ bytes).bind fun answer => ?_
  rcases answer with code | _ | block <;> exact returns_pure fun _ hs => hs

/-- **Describing a failure** leaves nothing behind. -/
theorem returns_describeError (hacc : acc.Refunds) (code : ErrorCode) :
    Returns (acc.Balance refs blocks thrown) (describeError code) fun _ =>
      acc.Balance refs blocks thrown := by
  have hname : Returns (acc.Balance refs blocks thrown) (getErrorName code) fun _ =>
      acc.Balance refs blocks thrown := by
    refine (ToolTable.returns_getErrorName hacc code).bind fun answer => ?_
    rcases answer with code | block
    · exact returns_pure fun _ hs => hs
    · exact (returns_takeText hacc block).mono (fun _ hs => hs) fun _ _ hs => hs.2
  refine hname.bind fun answer => ?_
  rcases answer with code | name <;> exact returns_pure fun _ hs => hs

/-- A failure that may be logged, under the name of its code. -/
theorem returns_whenKept_describeError (hacc : acc.Refunds) (level : Level) (code : ErrorCode)
    (message : String) (fields : String → List (String × String)) :
    Returns (acc.Balance refs blocks thrown) (Act.whenKept level do
      let error ← describeError code
      Act.log level message (fields error)) fun _ => acc.Balance refs blocks thrown := by
  have hlog : Safe (acc.Balance refs blocks thrown) (do
      let error ← describeError code
      Act.log level message (fields error)) :=
    (returns_describeError hacc code).bind fun _ =>
      (isWorldly_balance.safe_log _ _ _).returns
  exact (hlog.concur.whenKept level).safe.returns

end ToolInterface

end AdviceWeaver

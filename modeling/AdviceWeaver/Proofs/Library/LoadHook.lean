import AdviceWeaver.Library.Host
import AdviceWeaver.Proofs.Library.Loaders
import AdviceWeaver.Proofs.Library.Tools

/-!
# The hook for classes that are loaded

The library is called for a class that is loaded, and again for the classes that are loaded because its
transformers ask around. A flag tells these apart: while it is set the hook does nothing at all. So it
does not matter how deep loading may nest, and the transformers do what they would do if nobody listened
to the classes that are loaded meanwhile (`LoadHook.idle`).

The flag is set before the transformers run, and is clear again in the end, whatever comes of them: the
hook itself never panics. A transformer that is not a pipeline may do anything on the way to its answer: it
may ask loaders, have classes loaded, leave notes, and panic (`ForeignWork`).

The JVM is handed the bytes in a block of its own memory, and is told how many they are, in 32 bits with a
sign (`NewClassFile`).

## Main results

* `JvmHost.loadHook_of_insideHook` — a class that is loaded meanwhile is left alone.
* `JvmHost.safe_loadHook` — the hook reaches as far as calls of the JVM do.
* `JvmHost.loadHook_handsBack` — a class goes through all transformers in a row, or stays as it is.
* `JvmHost.loadHook_withholds` — what comes out of them may be empty, or too long to tell its length.
-/

namespace AdviceWeaver

open Act Library ToolTable

/-- The hook that leaves every class alone. -/
def LoadHook.idle : LoadHook :=
  fun _ => return none

/-- The next request for a block of memory is met. -/
def Jvm.Grants (jvm : Jvm) : Prop :=
  jvm.missing.contains .allocate = false ∧ (jvm.nextCode .allocate).1 = 0
    ∧ jvm.behaviour.nullAllocate = false

namespace JvmHost

variable {allowed : String → Prop} {w₀ : Library} {hook hook' : LoadHook} {host : ToolHost}
  {e : LoadEvent} {s : Session Library}

/-! ### The flag -/

/-- A session in which the flag is set to a value. -/
def flagged (s : Session Library) (value : Bool) : Session Library :=
  { s with world := { s.world with insideHook := value } }

/-- **A class that is loaded meanwhile** is left alone, and nothing else happens. -/
theorem loadHook_of_insideHook (depth : Nat) (e : LoadEvent) (hflag : s.world.insideHook = true) :
    (loadHook depth e).run s = (.ok none, s) := by
  cases depth with
  | zero => rfl
  | succ depth =>
    rw [loadHook, run_bind_ok run_world]
    cases s.world.host with
    | none => rfl
    | some host =>
      dsimp only
      rw [if_pos hflag]
      rfl

/-- Without a host a class is left alone. -/
theorem loadHook_of_no_host (depth : Nat) (e : LoadEvent) (hhost : s.world.host = none) :
    (loadHook depth e).run s = (.ok none, s) := by
  cases depth with
  | zero => rfl
  | succ depth =>
    rw [loadHook, run_bind_ok run_world, hhost]
    rfl

/-- While the flag is set, how deep loading may nest makes no difference. -/
theorem concur_loadHook_idle (hflag : w₀.insideHook = true) (depth : Nat) (e : LoadEvent) :
    Concur (w₀.LeadsTo allowed) (loadHook depth e) (LoadHook.idle e) := by
  intro s hs
  have hinside : s.world.insideHook = true := by rw [hs.insideHook, hflag]
  exact ⟨none, s, loadHook_of_insideHook depth e hinside, rfl, hs⟩

/-! ### One class -/

section Nested

variable (hallowed : ∀ line, ToolFunction.Discreet line → allowed line)
include hallowed

/-- The bytes that are handed back take a block within reach, or the failure is logged. -/
theorem safe_handBack (bytes : Bytes) : Safe (w₀.LeadsTo allowed) (handBack bytes) := by
  refine (ToolInterface.safe_allocateCopy hallowed bytes).bind fun answer => ?_
  rcases answer with code | block
  · exact (ToolInterface.safe_whenKept_describeError hallowed _ code _ _).bind fun _ =>
      (settles_pure _).safe
  · exact (settles_pure _).safe

variable (hhook : ∀ e, Concur (w₀.LeadsTo allowed) (hook e) (hook' e))
include hhook

/-- Transforming a class agrees for two hooks that concur: they are called only for what is loaded
meanwhile. -/
theorem agree_transformClass (host : ToolHost) (e : LoadEvent) :
    Agree (w₀.LeadsTo allowed) (transformClass hook host e) (transformClass hook' host e) := by
  have hpass (bytes : Bytes) (transformers : List Transformer) (loader : Option LoaderId) :
      Agree (w₀.LeadsTo allowed)
        (Transformer.transformAll (LoaderAccess.ops hook) (requestOf e bytes loader) transformers)
        (Transformer.transformAll (LoaderAccess.ops hook') (requestOf e bytes loader) transformers) :=
    Transformer.agree_transformAll isWorldly_leadsTo
      ((LoaderAccess.agree_ops hallowed hhook).inUse isWorldly_leadsTo) _ _
  unfold transformClass
  split
  · exact agree_pure _
  · exact agree_pure _
  · dsimp only
    split
    · exact (agree_pure _).bind fun loader => hpass _ _ loader
    · simp only [bind_map_left]
      exact (LoaderAccess.safe_new _ _).concur.agree.bind fun loader => hpass _ _ _

/-- Processing a class does not panic, as a transformer that does is caught. -/
theorem concur_processClass (host : ToolHost) (e : LoadEvent) :
    Concur (w₀.LeadsTo allowed) (processClass hook host e) (processClass hook' host e) := by
  refine (agree_transformClass hallowed hhook host e).attempt.bind fun outcome => ?_
  rcases outcome with p | _ | bytes
  · exact (isWorldly_leadsTo.safe_log _ _ _).concur.bind fun _ => concur_pure _
  · exact concur_pure _
  · exact (safe_handBack hallowed bytes).concur

end Nested

/-- A class that is not loaded meanwhile is processed, with the flag set as long as that takes. -/
theorem exists_run_loadHook (depth : Nat) (e : LoadEvent) (hhost : s.world.host = some host)
    (hflag : s.world.insideHook = false) :
    ∃ block s', (processClass LoadHook.idle host e).run (flagged s true) = (.ok block, s')
      ∧ (flagged s true).world.Reaches ToolFunction.Discreet s'.world
      ∧ (loadHook (depth + 1) e).run s = (.ok block, flagged s' false) := by
  have hnested (e : LoadEvent) :
      Concur ((flagged s true).world.LeadsTo ToolFunction.Discreet) (loadHook depth e)
        (LoadHook.idle e) := concur_loadHook_idle rfl depth e
  obtain ⟨block, s', hrun, hrun', hs'⟩ :=
    concur_processClass (fun _ h => h) hnested host e (flagged s true) (Reaches.refl _)
  refine ⟨block, s', hrun', hs', ?_⟩
  rw [loadHook, run_bind_ok run_world, hhost]
  dsimp only
  rw [hflag, if_neg Bool.false_ne_true]
  have hset : (setInsideHook true).run s = (.ok (), flagged s true) := rfl
  have hclear : (setInsideHook false).run s' = (.ok (), flagged s' false) := rfl
  rw [run_bind_ok hset, run_bind_ok hrun, run_bind_ok hclear]
  rfl

/-- **The hook** reaches as far as calls of the JVM do, and leaves the flag as it was. -/
theorem safe_loadHook (hallowed : ∀ line, ToolFunction.Discreet line → allowed line) (depth : Nat)
    (e : LoadEvent) : Safe (w₀.LeadsTo allowed) (loadHook depth e) := by
  intro s hs
  cases depth with
  | zero => exact ⟨none, s, rfl, hs⟩
  | succ depth =>
    cases hflag : s.world.insideHook with
    | true => exact ⟨none, s, loadHook_of_insideHook _ e hflag, hs⟩
    | false =>
      cases hhost : s.world.host with
      | none => exact ⟨none, s, loadHook_of_no_host _ e hhost, hs⟩
      | some host =>
        obtain ⟨block, s', -, hreach, hrun⟩ := exists_run_loadHook depth e hhost hflag
        obtain ⟨lines, hlines, hdiscreet⟩ := hreach.jvm
        refine ⟨block, _, hrun, hs.trans ⟨hreach.host, hflag.symm, hreach.pendingStart, hreach.agent,
          lines, hlines, fun line hline => hallowed line (hdiscreet line hline)⟩⟩

/-! ### What is handed back -/

/-- What a request shows of the loader of a class: a new view of it. -/
def viewOf (loader : Option Nat) : Act Library (Option LoaderId) :=
  match loader with
  | none => return none
  | some index => some <$> LoaderAccess.new (.lent (.loader index)) false

/-- What the transformers of a host make of a class, in the order in which they were registered: each is
passed the latest answer before it, or the class itself. Nothing is asked of them if the class comes
without bytes. -/
def foldTransformers (nested : LoadHook) (host : ToolHost) (e : LoadEvent) :
    Act Library (Option Bytes) := do
  match host.transformers, e.bytes with
  | [], _ => return none
  | _, none => return none
  | transformers, some bytes =>
    let loader ← viewOf e.loader
    transformers.foldlM (Transformer.passOn (LoaderAccess.ops nested) (requestOf e bytes loader)) none

/-- What the transformers make of a class is what passing it on from one to the next does. -/
theorem transformClass_eq_foldTransformers (nested : LoadHook) (host : ToolHost) (e : LoadEvent) :
    transformClass nested host e = foldTransformers nested host e := by
  obtain ⟨supportsRetransform, transformers⟩ := host
  obtain ⟨redefining, loader, name, bytes, length⟩ := e
  cases transformers with
  | nil => rfl
  | cons t rest =>
    cases bytes with
    | none => rfl
    | some bytes =>
      simp only [transformClass, foldTransformers, Transformer.transformAll_eq_foldlM]
      cases loader <;> rfl

/-- A call for memory leaves a line with its size. -/
theorem line_allocate (size : Nat) :
    line .allocate (toString (size : Int)) = some ("Allocate " ++ toString size) := by
  have hne : toString (size : Int) ≠ "" := Nat.repr_ne_empty
  rw [line, if_neg hne]
  rfl

/-- A block that the JVM has memory for is a new one, of just the size that is asked for. -/
theorem run_allocate_of_grants (bytes : Bytes) (h : s.world.jvm.Grants) :
    ∃ s', (allocate bytes.length bytes).run s
        = (.ok (.ok (some ⟨s.world.jvm.handedOut + 1, bytes⟩)), s')
      ∧ s'.world.jvm.blocks = (s.world.jvm.handedOut + 1) :: s.world.jvm.blocks
      ∧ s'.world.jvm.calls = ("Allocate " ++ toString bytes.length) :: s.world.jvm.calls := by
  obtain ⟨hthere, hcode, hmemory⟩ := h
  obtain ⟨codes, hnext⟩ := s.world.jvm.exists_nextCode .allocate
  have hcalled : (called .allocate ("Allocate " ++ toString bytes.length) s).world.jvm
      = { s.world.jvm with
          behaviour := { s.world.jvm.behaviour with codes }
          calls := ("Allocate " ++ toString bytes.length) :: s.world.jvm.calls } := by
    rw [called, hnext, hcode, if_pos rfl]
    rfl
  rw [allocate, line_allocate, run_call hthere, if_pos hcode]
  generalize called .allocate ("Allocate " ++ toString bytes.length) s = t at hcalled ⊢
  have hvm : vm.run t = (.ok t.world.jvm, t) := rfl
  have hblock : (withVm fun vm => vm.newBlock bytes).run t
      = (.ok ⟨t.world.jvm.handedOut + 1, bytes⟩,
        { t with world := { t.world with jvm := (t.world.jvm.newBlock bytes).2 } }) := rfl
  rw [run_bind_ok hvm, hcalled, hmemory, if_neg Bool.false_ne_true, run_bind_ok hblock, hcalled]
  exact ⟨_, rfl, rfl, rfl⟩

/-- A JVM without memory answers no block: the function is missing, fails, or answers null. -/
theorem run_allocate_of_not_grants (bytes : Bytes) (h : ¬ s.world.jvm.Grants) :
    ∃ answer s', (allocate bytes.length bytes).run s = (.ok answer, s')
      ∧ ∀ block, answer ≠ .ok (some block) := by
  cases hthere : s.world.jvm.missing.contains .allocate with
  | true => exact ⟨_, s, run_call_of_missing hthere, fun _ h => nomatch h⟩
  | false =>
    rw [allocate, line_allocate, run_call hthere]
    generalize hcalled : called .allocate ("Allocate " ++ toString bytes.length) s = t
    by_cases hcode : (s.world.jvm.nextCode .allocate).1 = 0
    · obtain ⟨codes, hnext⟩ := s.world.jvm.exists_nextCode .allocate
      have hmemory : t.world.jvm.behaviour.nullAllocate = true := by
        rw [← hcalled, called, hnext]
        exact eq_true_of_ne_false fun hmemory => h ⟨hthere, hcode, hmemory⟩
      have hvm : vm.run t = (.ok t.world.jvm, t) := rfl
      rw [if_pos hcode, run_bind_ok hvm, if_pos hmemory]
      exact ⟨_, t, rfl, fun _ h => nomatch h⟩
    · rw [if_neg hcode]
      exact ⟨_, t, rfl, fun _ h => nomatch h⟩

/-- What is handed back for the outcome of the transformers, by a JVM before and after: the bytes in a new
block of just their size, or nothing if there are none, or if the JVM has no memory for them. The JVM is
told the length of the block, if 31 bits can tell it. -/
structure HandsBack (outcome : Except Panic (Option Bytes)) (jvm : Jvm)
    (handed : Option NewClassFile) (jvm' : Jvm) : Prop where
  nothing : (∀ bytes, outcome ≠ .ok (some bytes)) → handed = none
  refused : ¬ jvm.Grants → handed = none
  granted : ∀ bytes, outcome = .ok (some bytes) → jvm.Grants →
    handed = some ⟨⟨jvm.handedOut + 1, bytes⟩, Int32.ofNat bytes.length⟩
      ∧ jvm'.blocks = (jvm.handedOut + 1) :: jvm.blocks
      ∧ jvm'.calls = ("Allocate " ++ toString bytes.length) :: jvm.calls
  told : ∀ f, handed = some f → f.block.content.length < 2147483648 →
    f.length.toInt = f.block.content.length ∧ f.octets = f.block.content

/-- The JVM takes the whole block if it is told its length. -/
theorem octets_of_length {block : MemoryBlock} (h : block.content.length < 2147483648) :
    (Int32.ofNat block.content.length).toInt = block.content.length
      ∧ (NewClassFile.mk block (Int32.ofNat block.content.length)).octets = block.content := by
  have htold : (Int32.ofNat block.content.length).toInt = block.content.length :=
    Int32.toInt_ofNat_of_lt h
  refine ⟨htold, ?_⟩
  rw [NewClassFile.octets, htold, Int.toNat_natCast, List.take_length]

/-- Handing back is up to the JVM. -/
theorem handsBack_run_handBack (bytes : Bytes) (s : Session Library) :
    ∃ handed s', (handBack bytes).run s = (.ok handed, s')
      ∧ HandsBack (.ok (some bytes)) s.world.jvm handed s'.world.jvm := by
  by_cases hgrants : s.world.jvm.Grants
  · obtain ⟨s', hrun, hblocks, hcalls⟩ := run_allocate_of_grants bytes hgrants
    have hcopy : (ToolInterface.allocateCopy bytes).run s
        = (.ok (.ok ⟨s.world.jvm.handedOut + 1, bytes⟩), s') := run_bind_ok hrun
    refine ⟨_, s', run_bind_ok hcopy, fun h => absurd rfl (h bytes), fun h => absurd hgrants h, ?_, ?_⟩
    · rintro _ ⟨⟩ -
      exact ⟨rfl, hblocks, hcalls⟩
    · rintro _ ⟨⟩ hlength
      exact octets_of_length hlength
  · obtain ⟨answer, s', hrun, hanswer⟩ := run_allocate_of_not_grants bytes hgrants
    have hcopy : ∃ code, (ToolInterface.allocateCopy bytes).run s = (.ok (.error code), s') := by
      rcases answer with code | _ | block
      · exact ⟨code, run_bind_ok hrun⟩
      · exact ⟨ErrorCode.outOfMemory, run_bind_ok hrun⟩
      · exact absurd rfl (hanswer block)
    obtain ⟨code, hcopy⟩ := hcopy
    have hlog : Safe (s'.world.LeadsTo fun _ => True) (Act.whenKept .warn do
        let error ← ToolInterface.describeError code
        Act.log .warn "cannot hand transformed class back to the JVM" [("error", error)]) :=
      ToolInterface.safe_whenKept_describeError (fun _ _ => trivial) _ code _ _
    obtain ⟨⟨⟩, s₂, hwarn, -⟩ := hlog s' (Reaches.refl _)
    exact ⟨none, s₂, (run_bind_ok hcopy).trans (run_bind_ok hwarn), fun _ => rfl, fun _ => rfl,
      fun _ _ h => absurd h hgrants, nofun⟩

/-- A class that is not loaded meanwhile goes through the transformers with the flag set, and the flag is
clear afterwards. -/
theorem exists_run_outermost (depth : Nat) (e : LoadEvent) (hhost : s.world.host = some host)
    (hflag : s.world.insideHook = false) :
    ∃ outcome ran handed s',
      (foldTransformers LoadHook.idle host e).run (flagged s true) = (outcome, ran)
        ∧ ran.world.insideHook = true
        ∧ (loadHook (depth + 1) e).run s = (.ok handed, s')
        ∧ HandsBack outcome ran.world.jvm handed s'.world.jvm
        ∧ s'.world.insideHook = false ∧ s'.world.host = some host := by
  obtain ⟨handed, s', hprocess, hreach, hrun⟩ := exists_run_loadHook depth e hhost hflag
  have hidle (e : LoadEvent) : Concur ((flagged s true).world.LeadsTo ToolFunction.Discreet)
      (LoadHook.idle e) (LoadHook.idle e) := concur_pure none
  obtain ⟨-, hran⟩ :=
    agree_transformClass (fun _ h => h) hidle host e (flagged s true) (Reaches.refl _)
  rw [transformClass_eq_foldTransformers] at hran
  rcases hfold : (foldTransformers LoadHook.idle host e).run (flagged s true) with ⟨outcome, ran⟩
  rw [hfold] at hran
  refine ⟨outcome, ran, handed, _, rfl, hran.insideHook, hrun, ?_, rfl, hreach.host.trans hhost⟩
  have hattempt : (Act.attempt (foldTransformers LoadHook.idle host e)).run (flagged s true)
      = (.ok outcome, ran) := run_attempt hfold
  rw [processClass, transformClass_eq_foldTransformers, run_bind_ok hattempt] at hprocess
  rcases outcome with p | _ | bytes
  · cases hprocess
    exact ⟨fun _ => rfl, fun _ => rfl, fun _ h => (nomatch h), nofun⟩
  · cases hprocess
    exact ⟨fun _ => rfl, fun _ => rfl, fun _ h => (nomatch h), nofun⟩
  · obtain ⟨handed', s₁, hback, hhands⟩ := handsBack_run_handBack bytes ran
    dsimp only at hprocess
    rw [hback] at hprocess
    cases hprocess
    exact hhands

/-- **A class goes through all transformers in a row, or stays as it is.** A class that is loaded while
another one is transformed is left alone, and nothing else happens. For any other class the transformers
run with the flag set, each on the latest answer before it, as if nobody listened to the classes that they
have loaded meanwhile; what comes out is handed back in memory of the JVM, with its length as far as 31
bits tell it, and nothing is if nothing comes out, if one of them panics, or if there is no memory. The
flag is clear afterwards in any case. -/
theorem loadHook_handsBack (depth : Nat) (e : LoadEvent) (s : Session Library) :
    (s.world.insideHook = true → (loadHook depth e).run s = (.ok none, s))
      ∧ ∀ host, s.world.host = some host → s.world.insideHook = false →
        ∃ outcome ran handed s',
          (foldTransformers LoadHook.idle host e).run (flagged s true) = (outcome, ran)
            ∧ ran.world.insideHook = true
            ∧ (loadHook (depth + 1) e).run s = (.ok handed, s')
            ∧ HandsBack outcome ran.world.jvm handed s'.world.jvm
            ∧ s'.world.insideHook = false ∧ s'.world.host = some host :=
  ⟨loadHook_of_insideHook depth e, fun _ hhost hflag => exists_run_outermost depth e hhost hflag⟩

/-- A library with these transformers, whose JVM tells of the classes that are loaded. -/
def sessionWith (behaviour : JvmBehaviour) (transformers : List Transformer) : Session Library :=
  .start { Library.start { Jvm.start #[] #[] [] [] [] behaviour with
      callbacks := ⟨none, none, true⟩
      enabled := [JvmEvent.classFileLoad] } ⟨[]⟩ ⟨[]⟩ with
    host := some ⟨true, transformers⟩ }

/-- A class of one octet. -/
def sampleEvent : LoadEvent :=
  ⟨false, none, none, some [7], 1⟩

/-- Three transformers, of which the first one has another class loaded meanwhile, and the second one leaves
every class as it is. -/
def sampleTransformers : List Transformer :=
  [.custom "first" fun r => .load ⟨false, none, none, some [9], 1⟩ fun _ => .answer (some (r.bytes ++ [1])),
    .custom "second" fun _ => .answer none,
    .custom "third" fun r => .answer (some (r.bytes ++ [2]))]

/-- With the flag set nothing is handed back, and without it the three octets that two transformers make
of a class. -/
theorem loadHook_handsBack_sample :
    (loadHook 2 sampleEvent).run (flagged (sessionWith .regular sampleTransformers) true)
        = (.ok none, flagged (sessionWith .regular sampleTransformers) true)
      ∧ ∃ s', (loadHook 2 sampleEvent).run (sessionWith .regular sampleTransformers)
          = (.ok (some ⟨⟨1, [7, 1, 2]⟩, 3⟩), s')
        ∧ s'.world.jvm.blocks = [1] ∧ s'.world.insideHook = false := by
  refine ⟨(loadHook_handsBack 2 sampleEvent (flagged (sessionWith .regular sampleTransformers) true)).1
    rfl, ?_⟩
  obtain ⟨outcome, ran, handed, s', hfold, -, hrun, hhands, hflag, -⟩ :=
    (loadHook_handsBack 1 sampleEvent (sessionWith .regular sampleTransformers)).2 _ rfl rfl
  obtain ⟨rfl, rfl⟩ := Prod.mk.inj hfold
  obtain ⟨rfl, hblocks, -⟩ := hhands.granted [7, 1, 2] rfl ⟨rfl, rfl, rfl⟩
  exact ⟨s', hrun, hblocks, hflag⟩

/-- What comes out of one transformer is handed back with the low 32 bits of its length. -/
theorem exists_run_inflating (n : Nat) :
    ∃ f s', (loadHook 2 sampleEvent).run
        (sessionWith .regular [.custom "inflating" fun _ => .answer (some (List.replicate n 0))])
        = (.ok (some f), s')
      ∧ f.block.content.length = n ∧ f.length = Int32.ofNat n := by
  obtain ⟨outcome, ran, handed, s', hfold, -, hrun, hhands, -, -⟩ := exists_run_outermost
    (s := sessionWith .regular [.custom "inflating" fun _ => .answer (some (List.replicate n 0))])
    1 sampleEvent rfl rfl
  obtain ⟨rfl, rfl⟩ := Prod.mk.inj hfold
  obtain ⟨rfl, -, -⟩ := hhands.granted (List.replicate n 0) rfl ⟨rfl, rfl, rfl⟩
  rw [List.length_replicate] at hrun
  exact ⟨_, s', hrun, List.length_replicate, rfl⟩

/-- **Not all that comes out can be handed back.** For a class file of no octets, a JVM that does not fail
may answer null in the place of memory; then the class stays as it is. And 32 bits with a sign cannot tell
the length of a class file of `2 ^ 31` octets. -/
theorem loadHook_withholds :
    (∃ ran s', (foldTransformers LoadHook.idle ⟨true, [.custom "emptying" fun _ => .answer (some [])]⟩
          sampleEvent).run (flagged (sessionWith { JvmBehaviour.regular with nullAllocate := true }
            [.custom "emptying" fun _ => .answer (some [])]) true) = (.ok (some []), ran)
        ∧ ran.world.jvm.missing.contains .allocate = false
        ∧ (ran.world.jvm.nextCode .allocate).1 = 0
        ∧ (loadHook 2 sampleEvent).run (sessionWith { JvmBehaviour.regular with nullAllocate := true }
          [.custom "emptying" fun _ => .answer (some [])]) = (.ok none, s'))
      ∧ ∃ f s', (loadHook 2 sampleEvent).run (sessionWith .regular
          [.custom "inflating" fun _ => .answer (some (List.replicate 2147483648 0))])
          = (.ok (some f), s')
        ∧ f.block.content.length = 2147483648 ∧ f.length.toInt = -2147483648 := by
  constructor
  · obtain ⟨outcome, ran, handed, s', hfold, -, hrun, hhands, -, -⟩ := exists_run_outermost
      (s := sessionWith { JvmBehaviour.regular with nullAllocate := true }
        [.custom "emptying" fun _ => .answer (some [])]) 1 sampleEvent rfl rfl
    obtain ⟨rfl, rfl⟩ := Prod.mk.inj hfold
    obtain rfl : handed = none := hhands.refused fun hgrants => nomatch hgrants.2.2
    exact ⟨_, s', rfl, rfl, rfl, hrun⟩
  · obtain ⟨f, s', hrun, hlength, htold⟩ := exists_run_inflating 2147483648
    refine ⟨f, s', hrun, hlength, ?_⟩
    rw [htold]
    decide

end JvmHost

end AdviceWeaver

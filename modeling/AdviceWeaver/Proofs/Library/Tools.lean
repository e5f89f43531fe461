import AdviceWeaver.Proofs.Library.Reach

/-!
# How far the tool interface reaches

The functions of the tool interface keep the library within reach and do not panic, whatever codes the
JVM answers. All but two of them are discreet: only `getLoadedClasses` and `retransformClasses` need any
line to be allowed.

## Main results

* `ToolTable.concur_call` — a call leaves a line with the name of the function, if any.
* `ToolTable.concur_setEventNotificationMode` — an event that is enabled may load classes.
* `ToolInterface.concur_retransformClasses` — classes that are transformed again.
-/

namespace AdviceWeaver

open Act Library

variable {allowed : String → Prop} {w₀ : Library} {hook hook' : LoadHook} {s : Session Library}

/-- Taking a code from the script changes nothing else. -/
theorem Jvm.exists_nextCode (jvm : Jvm) (f : ToolFunction) :
    ∃ codes, (jvm.nextCode f).2 = { jvm with behaviour := { jvm.behaviour with codes } } := by
  unfold nextCode
  split
  · exact ⟨jvm.behaviour.codes, rfl⟩
  · exact ⟨_, rfl⟩

namespace ToolTable

/-! ### Calls -/

/-- The session in which a function does its work: the script has one code less for it, and the call has
left its line. -/
def called (f : ToolFunction) (line : String) (s : Session Library) : Session Library :=
  let code := (s.world.jvm.nextCode f).1
  let shown := if code = 0 then line else line ++ " -> " ++ toString code
  { s with world := { s.world with jvm := (s.world.jvm.nextCode f).2.trace shown } }

/-- A function that is there is called, and ends with its code unless that is zero. -/
theorem run_call {α : Type} {f : ToolFunction} {line : String} {body : Act Library (ToolAnswer α)}
    (h : s.world.jvm.missing.contains f = false) :
    (call f (some line) body).run s
      = (if (s.world.jvm.nextCode f).1 = 0 then body
          else return .error (s.world.jvm.nextCode f).1).run (called f line s) := by
  have hvm : vm.run s = (.ok s.world.jvm, s) := rfl
  have hcode : (withVm fun vm => vm.nextCode f).run s
      = (.ok (s.world.jvm.nextCode f).1,
        { s with world := { s.world with jvm := (s.world.jvm.nextCode f).2 } }) := rfl
  rw [call, run_bind_ok hvm, h, if_neg Bool.false_ne_true, run_bind_ok hcode]
  rfl

/-- The call of a function that is there can be told by its line, which is the latest one when the
function does its work. -/
theorem exists_calls_called {f : ToolFunction} {arguments text : String}
    (h : line f arguments = some text) (s : Session Library) :
    ∃ shown, (called f text s).world.jvm.calls = shown :: s.world.jvm.calls
      ∧ ∀ f' : ToolFunction, f'.Marks shown ↔ f' = f := by
  have hcalls : (s.world.jvm.nextCode f).2.calls = s.world.jvm.calls := by
    obtain ⟨codes, hnext⟩ := s.world.jvm.exists_nextCode f
    rw [hnext]
  have hmarks (rest : String) (f' : ToolFunction) : f'.Marks (text ++ rest) ↔ f' = f :=
    ToolFunction.marks_line h
  refine ⟨_, congrArg (_ :: ·) hcalls, ?_⟩
  split
  · rw [← String.append_empty (s := text)]
    exact hmarks ""
  · rw [String.append_assoc]
    exact hmarks _

/-- A function that the tool interface does not have is not called, and its code tells so. -/
theorem run_call_of_missing {α : Type} {f : ToolFunction} {text : Option String}
    {body : Act Library (ToolAnswer α)} (h : s.world.jvm.missing.contains f = true) :
    (call f text body).run s = (.ok (.error ErrorCode.notAvailable), s) := by
  have hvm : vm.run s = (.ok s.world.jvm, s) := rfl
  rw [call, run_bind_ok hvm, if_pos h]
  rfl

/-- **A call** reaches as far as its line and the function do. -/
theorem concur_call {α : Type} (f : ToolFunction) {text : Option String}
    {body body' : Act Library (ToolAnswer α)}
    (htext : ∀ line ∈ text, ∀ rest : String, allowed (line ++ rest))
    (hbody : Concur (w₀.LeadsTo allowed) body body') :
    Concur (w₀.LeadsTo allowed) (call f text body) (call f text body') := by
  have hcode : Safe (w₀.LeadsTo allowed) (withVm fun vm => vm.nextCode f) := by
    refine safe_withVm fun vm => Jvm.goesOn_of_eq ?_
    obtain ⟨codes, hnext⟩ := vm.exists_nextCode f
    rw [hnext]
  refine safe_vm.concur.bind fun vm => ?_
  split
  · exact concur_pure _
  refine hcode.concur.bind fun code => ?_
  have hend : Concur (w₀.LeadsTo allowed) (if code = 0 then body else return .error code)
      (if code = 0 then body' else return .error code) := by
    split
    · exact hbody
    · exact concur_pure _
  cases text with
  | none => exact hend
  | some line =>
    have hline : allowed (if code = 0 then line else line ++ " -> " ++ toString code) := by
      split
      · rw [← String.append_empty (s := line)]
        exact htext line rfl ""
      · rw [String.append_assoc]
        exact htext line rfl _
    exact (safe_trace hline).concur.bind fun _ => hend

section Discreet

variable (hallowed : ∀ line, ToolFunction.Discreet line → allowed line)
include hallowed

/-- A call of one of the discreet functions. -/
theorem concur_call_line {α : Type} {f : ToolFunction} {arguments : String}
    {body body' : Act Library (ToolAnswer α)} (hloaded : f ≠ .getLoadedClasses)
    (hretransform : f ≠ .retransformClasses)
    (hbody : Concur (w₀.LeadsTo allowed) body body') :
    Concur (w₀.LeadsTo allowed) (call f (line f arguments) body)
      (call f (line f arguments) body') :=
  concur_call f (fun _ hline rest =>
    hallowed _ (ToolFunction.discreet_line hline hloaded hretransform rest)) hbody

/-- A function that is named in its line, and is none of the two, is called within reach. -/
theorem safe_call_line {α : Type} {f : ToolFunction} {arguments : String}
    {body : Act Library (ToolAnswer α)} (hloaded : f ≠ .getLoadedClasses)
    (hretransform : f ≠ .retransformClasses) (hbody : Safe (w₀.LeadsTo allowed) body) :
    Safe (w₀.LeadsTo allowed) (call f (line f arguments) body) :=
  (concur_call_line hallowed hloaded hretransform hbody.concur).safe

/-- Capabilities are added within reach. -/
theorem safe_addCapabilities (cs : Capabilities) :
    Safe (w₀.LeadsTo allowed) (addCapabilities cs) :=
  safe_call_line hallowed (by decide) (by decide) (settles_pure _).safe

/-- Callbacks are set within reach. -/
theorem safe_setEventCallbacks (c : Callbacks) :
    Safe (w₀.LeadsTo allowed) (setEventCallbacks c) := by
  have hset : Safe (w₀.LeadsTo allowed) (modifyVm fun vm => { vm with callbacks := c }) :=
    safe_modifyVm fun _ => Jvm.goesOn_of_eq rfl
  exact safe_call_line hallowed (by decide) (by decide)
    (hset.bind fun _ => (settles_pure _).safe)

/-- A block is allocated within reach, or refused. -/
theorem safe_allocate (size : Int) (content : Bytes) :
    Safe (w₀.LeadsTo allowed) (allocate size content) := by
  refine safe_call_line hallowed (by decide) (by decide) (safe_vm.bind fun vm => ?_)
  split
  · exact (settles_pure _).safe
  · exact (safe_newBlock content).bind fun _ => (settles_pure _).safe

omit hallowed in
/-- A block is deallocated within reach. -/
theorem safe_deallocate (block : MemoryBlock) : Safe (w₀.LeadsTo allowed) (deallocate block) :=
  (concur_call .deallocate (by rintro _ ⟨⟩)
    ((safe_freeBlock block).concur.bind fun _ => concur_pure _)).safe

omit hallowed in
/-- The class that a reference stands for is looked up without a call. -/
theorem safe_classOf (r : JvmRef) : Safe (w₀.LeadsTo allowed) (classOf r) := by
  unfold classOf
  split
  · exact safe_vm.bind fun _ => (settles_pure _).safe
  · exact (settles_pure _).safe

/-- A call of one of the discreet functions that is about a class. -/
theorem safe_call_classLine {α : Type} {f : ToolFunction} {body : Act Library (ToolAnswer α)}
    (hloaded : f ≠ .getLoadedClasses) (hretransform : f ≠ .retransformClasses) (r : JvmRef)
    (hbody : Safe (w₀.LeadsTo allowed) body) :
    Safe (w₀.LeadsTo allowed) (classLine f r >>= fun text => call f text body) := by
  intro s hs
  have hcall : Safe (w₀.LeadsTo allowed) (call f (line f (s.world.jvm.show_ (some r))) body) :=
    safe_call_line hallowed hloaded hretransform hbody
  obtain ⟨x, s', hrun, hs'⟩ := hcall s hs
  have hline : (classLine f r).run s = (.ok (line f (s.world.jvm.show_ (some r))), s) := by
    unfold classLine vm
    rfl
  exact ⟨x, s', (run_bind_ok hline).trans hrun, hs'⟩

/-- The signature of a class is asked for within reach. -/
theorem safe_getClassSignature (r : JvmRef) :
    Safe (w₀.LeadsTo allowed) (getClassSignature r) :=
  safe_call_classLine hallowed (by decide) (by decide) r
    ((safe_classOf r).bind fun _ => (safe_newBlock _).bind fun _ => (settles_pure _).safe)

/-- The loader of a class is asked for within reach. -/
theorem safe_getClassLoader (r : JvmRef) : Safe (w₀.LeadsTo allowed) (getClassLoader r) := by
  refine safe_call_classLine hallowed (by decide) (by decide) r ((safe_classOf r).bind fun c => ?_)
  split
  · exact (settles_pure _).safe
  · exact (safe_newRef _).bind fun _ => (settles_pure _).safe

/-- Whether a class is modifiable is asked within reach. -/
theorem safe_isModifiableClass (r : JvmRef) : Safe (w₀.LeadsTo allowed) (isModifiableClass r) :=
  safe_call_classLine hallowed (by decide) (by decide) r
    ((safe_classOf r).bind fun _ => (settles_pure _).safe)

/-- The name of an error is asked for within reach. -/
theorem safe_getErrorName (code : ErrorCode) : Safe (w₀.LeadsTo allowed) (getErrorName code) := by
  refine safe_call_line hallowed (by decide) (by decide) (safe_vm.bind fun vm => ?_)
  split
  · exact (settles_pure _).safe
  · exact (safe_newBlock _).bind fun _ => (settles_pure _).safe

/-- A segment is added to the search path within reach. -/
theorem safe_addToBootstrapSearch (segment : String) :
    Safe (w₀.LeadsTo allowed) (addToBootstrapSearch segment) :=
  safe_call_line hallowed (by decide) (by decide) (settles_pure _).safe

variable (hhook : ∀ e, Concur (w₀.LeadsTo allowed) (hook e) (hook' e))
include hhook

/-- The classes that are loaded when an event is enabled reach as far as the hook does. -/
theorem concur_loadOnEnable (event : Nat) :
    Concur (w₀.LeadsTo allowed) (loadOnEnable hook event) (loadOnEnable hook' event) := by
  have htake (left : Jvm → List (Nat × String × Bytes)) : Safe (w₀.LeadsTo allowed)
      (modifyVm fun vm => { vm with onEnable := left vm }) :=
    safe_modifyVm fun _ => Jvm.goesOn_of_eq rfl
  have hlabel (rest : String) : allowed ("load" ++ rest) :=
    hallowed _ (ToolFunction.discreet_append (by decide) _)
  refine safe_vm.concur.bind fun vm => (htake _).concur.bind fun _ => ?_
  refine Concur.forM (fun c => ?_) _
  obtain ⟨_, name, bytes⟩ := c
  exact ClassLoading.concur_loadScripted hhook hlabel none name bytes

/-- **An event that is enabled** may load classes, for which the hook is called. -/
theorem concur_setEventNotificationMode (enable : Bool) (event : Nat) :
    Concur (w₀.LeadsTo allowed) (setEventNotificationMode hook enable event)
      (setEventNotificationMode hook' enable event) := by
  have hset : Safe (w₀.LeadsTo allowed) (modifyVm fun vm =>
      let others := vm.enabled.filter (· ≠ event)
      { vm with enabled := if enable then event :: others else others }) :=
    safe_modifyVm fun _ => Jvm.goesOn_of_eq rfl
  refine concur_call_line hallowed (by decide) (by decide) (hset.concur.bind fun _ => ?_)
  cases enable with
  | false => exact concur_pure _
  | true => exact (concur_loadOnEnable hallowed hhook event).bind fun _ => concur_pure _

end Discreet

/-! ### Functions that are not discreet -/

variable (hall : ∀ line, allowed line)
include hall

/-- The loaded classes are listed with a reference to each and a block, where every line is allowed. -/
theorem safe_getLoadedClasses : Safe (w₀.LeadsTo allowed) getLoadedClasses := by
  refine (concur_call _ (fun _ _ _ => hall _) (safe_vm.bind fun vm => ?_).concur).safe
  split
  · exact (settles_pure _).safe
  · refine safe_vm.bind fun vm => (Safe.mapM (fun index => safe_newRef _) _).bind fun refs => ?_
    exact (safe_newBlock _).bind fun _ => (settles_pure _).safe

variable (hhook : ∀ e, Concur (w₀.LeadsTo allowed) (hook e) (hook' e))
include hhook

omit hall in
/-- Classes are transformed again one after the other, up to the first that is none, with either hook.
-/
theorem concur_retransformEach (refs : List JvmRef) :
    Concur (w₀.LeadsTo allowed) (retransformEach hook refs) (retransformEach hook' refs) := by
  induction refs with
  | nil => exact concur_pure _
  | cons r rest ih =>
    refine (safe_classOf r).concur.bind fun c => ?_
    split
    · exact concur_pure _
    · exact (ClassLoading.concur_retransformClass hhook _).bind fun _ => ih
    · exact ih

/-- Transforming classes again reaches as far as the hook does, where every line is allowed. -/
theorem concur_retransformClasses (refs : List JvmRef) :
    Concur (w₀.LeadsTo allowed) (retransformClasses hook refs) (retransformClasses hook' refs) :=
  safe_vm.concur.bind fun _ =>
    concur_call _ (fun _ _ _ => hall _) (concur_retransformEach hhook refs)

end ToolTable

/-! ### Using the tool interface -/

namespace ToolInterface

section Discreet

variable (hallowed : ∀ line, ToolFunction.Discreet line → allowed line)
include hallowed

/-- The tool interface is connected to within reach. -/
theorem safe_connect : Safe (w₀.LeadsTo allowed) connect := by
  have hline : allowed ("GetEnv jvmti " ++ Text.hex 1 version) :=
    hallowed _ (ToolFunction.discreet_append (by decide) _)
  exact (safe_trace hline).bind fun _ => safe_vm.bind fun _ => (settles_pure _).safe

/-- Octets are copied to the memory of the tool interface within reach. -/
theorem safe_allocateCopy (bytes : Bytes) : Safe (w₀.LeadsTo allowed) (allocateCopy bytes) := by
  refine (ToolTable.safe_allocate hallowed _ bytes).bind fun answer => ?_
  rcases answer with code | _ | block <;> exact (settles_pure _).safe

omit hallowed in
/-- A text is taken over and its block deallocated within reach. -/
theorem safe_takeText (block : MemoryBlock) : Safe (w₀.LeadsTo allowed) (takeText block) := by
  refine (ToolTable.safe_deallocate block).bind fun answer => ?_
  rcases answer with code | _ <;> exact (settles_pure _).safe

/-- The signature of a class is taken over within reach. -/
theorem safe_getClassSignature (r : JvmRef) :
    Safe (w₀.LeadsTo allowed) (getClassSignature r) := by
  refine (ToolTable.safe_getClassSignature hallowed r).bind fun answer => ?_
  rcases answer with code | block
  · exact (settles_pure _).safe
  · exact safe_takeText block

/-- A segment is handed over within reach, unless it has a zero in it. -/
theorem safe_addToBootstrapSearch (segment : String) :
    Safe (w₀.LeadsTo allowed) (addToBootstrapSearch segment) := by
  unfold addToBootstrapSearch
  split
  · exact (settles_pure _).safe
  · exact ToolTable.safe_addToBootstrapSearch hallowed segment

/-- An error is told by its name and its number, or by its number alone, within reach. -/
theorem safe_describeError (code : ErrorCode) :
    Safe (w₀.LeadsTo allowed) (describeError code) := by
  have hname : Safe (w₀.LeadsTo allowed) (getErrorName code) := by
    refine (ToolTable.safe_getErrorName hallowed code).bind fun answer => ?_
    rcases answer with code | block
    · exact (settles_pure _).safe
    · exact safe_takeText block
  refine hname.bind fun answer => ?_
  rcases answer with code | name <;> exact (settles_pure _).safe

/-- A failure that may be logged, under the name of its code. -/
theorem safe_whenKept_describeError (level : Level) (code : ErrorCode) (message : String)
    (fields : String → List (String × String)) :
    Safe (w₀.LeadsTo allowed) (Act.whenKept level do
      let error ← describeError code
      Act.log level message (fields error)) := by
  have hlog : Safe (w₀.LeadsTo allowed) (do
      let error ← describeError code
      Act.log level message (fields error)) :=
    (safe_describeError hallowed code).bind fun _ =>
      isWorldly_leadsTo.safe_log _ _ _
  exact (hlog.concur.whenKept level).safe

end Discreet

variable (hall : ∀ line, allowed line)
include hall

/-- The references to the loaded classes are taken over and their block deallocated. -/
theorem safe_getLoadedClasses : Safe (w₀.LeadsTo allowed) getLoadedClasses := by
  refine (ToolTable.safe_getLoadedClasses hall).bind fun answer => ?_
  rcases answer with code | _ | ⟨refs, block⟩
  · exact (settles_pure _).safe
  · exact (settles_pure _).safe
  · refine (ToolTable.safe_deallocate block).bind fun answer => ?_
    rcases answer with code | _ <;> exact (settles_pure _).safe

/-- **Classes that are transformed again** may be loaded classes of which the hook makes something. -/
theorem concur_retransformClasses (hhook : ∀ e, Concur (w₀.LeadsTo allowed) (hook e) (hook' e))
    (refs : List JvmRef) :
    Concur (w₀.LeadsTo allowed) (retransformClasses hook refs) (retransformClasses hook' refs) := by
  unfold retransformClasses
  split
  · exact concur_pure _
  · exact ToolTable.concur_retransformClasses hall hhook refs

end ToolInterface

end AdviceWeaver

import AdviceWeaver.Jvm.ToolInterface
import AdviceWeaver.Library.Loader
import AdviceWeaver.Proofs.Pipeline.Agreement

/-!
# How far calls of the JVM reach

What the library asks its JVM while it looks at a class changes little: the JVM goes on, and leaves a line
for every call, but the library keeps its host, its agent and its flags (`Library.Reaches`). The lines
tell which functions of the tool interface are called, so it can be said of a whole stretch of work that
the JVM is not asked for its loaded classes in it, and not to transform classes again
(`ToolFunction.Discreet`).

A JVM calls the library back when it loads a class. So what is said of a function of the JVM is said
under the condition that it holds of the hook that is called, for two hooks at once: functions of the JVM
do not tell hooks apart that concur.

## Main results

* `ToolFunction.marks_line` — the line of a call tells the function.
* `ClassLoading.concur_loadScripted`, `NativeTable.concur_callObjectMethod` — a class that is loaded
  meanwhile reaches no further than the hook does.
-/

namespace AdviceWeaver

open Act

/-! ### Lines -/

namespace ToolFunction

/-- The line is one that a call of the function leaves. -/
def Marks (f : ToolFunction) (line : String) : Prop :=
  f.name.toList <+: line.toList

/-- The line is none of a call that asks for the loaded classes, or that transforms classes again. -/
def Discreet (line : String) : Prop :=
  ¬ getLoadedClasses.Marks line ∧ ¬ retransformClasses.Marks line

/-- Two texts part: none of them goes on with what the other one has more. -/
def parts (a b : List Char) : Bool :=
  !a.isPrefixOf b && !b.isPrefixOf a

/-- A line does not begin with a name from which its own start parts. -/
theorem not_marks_append {f : ToolFunction} {start : String}
    (h : parts f.name.toList start.toList = true) (rest : String) : ¬ f.Marks (start ++ rest) := by
  intro hmarks
  simp only [parts, Bool.and_eq_true, Bool.not_eq_true', Bool.eq_false_iff, ne_eq,
    List.isPrefixOf_iff_prefix] at h
  rw [Marks, String.toList_append] at hmarks
  rcases List.prefix_or_prefix_of_prefix hmarks (List.prefix_append start.toList rest.toList) with
    hname | hstart
  · exact h.1 hname
  · exact h.2 hstart

/-- A line is discreet if the text that it starts with parts from the two names. -/
theorem discreet_append {start : String}
    (h : (parts getLoadedClasses.name.toList start.toList
      && parts retransformClasses.name.toList start.toList) = true) (rest : String) :
    Discreet (start ++ rest) := by
  rw [Bool.and_eq_true] at h
  exact ⟨not_marks_append h.1 rest, not_marks_append h.2 rest⟩

/-- The names of two functions part. -/
theorem parts_name {f f' : ToolFunction} (h : f ≠ f') :
    parts f.name.toList f'.name.toList = true := by
  have hall : ∀ f ∈ all, ∀ f' ∈ all, f ≠ f' → parts f.name.toList f'.name.toList = true := by
    decide +kernel
  exact hall f (by cases f <;> decide) f' (by cases f' <;> decide) h

/-- **The line of a call** tells the function, also with what is said behind it. -/
theorem marks_line {f f' : ToolFunction} {arguments text rest : String}
    (h : ToolTable.line f' arguments = some text) : f.Marks (text ++ rest) ↔ f = f' := by
  have hstart : ∃ more, text ++ rest = f'.name ++ more := by
    cases h
    split
    · exact ⟨rest, rfl⟩
    · exact ⟨" " ++ (arguments ++ rest), by simp only [String.append_assoc]⟩
  obtain ⟨more, hmore⟩ := hstart
  rw [hmore]
  constructor
  · intro hmarks
    exact Decidable.byContradiction fun hne => not_marks_append (parts_name hne) more hmarks
  · rintro rfl
    rw [Marks, String.toList_append]
    exact List.prefix_append _ _

/-- Calls of the other functions are discreet. -/
theorem discreet_line {f : ToolFunction} {arguments text : String}
    (h : ToolTable.line f arguments = some text) (hloaded : f ≠ getLoadedClasses)
    (hretransform : f ≠ retransformClasses) (rest : String) : Discreet (text ++ rest) :=
  ⟨fun hmarks => hloaded ((marks_line h).1 hmarks).symm,
    fun hmarks => hretransform ((marks_line h).1 hmarks).symm⟩

end ToolFunction

/-! ### What is kept -/

/-- The calls of the JVM go on, with lines that are allowed. -/
def Jvm.GoesOn (allowed : String → Prop) (vm vm' : Jvm) : Prop :=
  ∃ lines, vm'.calls = lines ++ vm.calls ∧ ∀ line ∈ lines, allowed line

/-- The library keeps its host, its agent and its flags, and the calls of its JVM go on with lines that
are allowed. -/
structure Library.Reaches (allowed : String → Prop) (w w' : Library) : Prop where
  host : w'.host = w.host
  insideHook : w'.insideHook = w.insideHook
  pendingStart : w'.pendingStart = w.pendingStart
  agent : w'.agent = w.agent
  jvm : w.jvm.GoesOn allowed w'.jvm

variable {allowed : String → Prop} {w w' w'' w₀ : Library} {jvm jvm' jvm'' : Jvm}

theorem Jvm.goesOn_of_eq (h : jvm'.calls = jvm.calls) : jvm.GoesOn allowed jvm' :=
  ⟨[], h, fun _ hline => nomatch hline⟩

theorem Jvm.goesOn_trace {line : String} (h : allowed line) : jvm.GoesOn allowed (jvm.trace line) :=
  ⟨[line], rfl, fun _ hline => List.mem_singleton.1 hline ▸ h⟩

/-- What goes on twice has gone on, with the lines of both stretches. -/
theorem Jvm.GoesOn.trans (h : jvm.GoesOn allowed jvm') (h' : jvm'.GoesOn allowed jvm'') :
    jvm.GoesOn allowed jvm'' := by
  obtain ⟨lines, hlines, hallowed⟩ := h
  obtain ⟨lines', hlines', hallowed'⟩ := h'
  refine ⟨lines' ++ lines, by rw [hlines', hlines, List.append_assoc], fun line hline => ?_⟩
  rcases List.mem_append.1 hline with hline | hline
  · exact hallowed' line hline
  · exact hallowed line hline

namespace Library

theorem Reaches.refl (w : Library) : w.Reaches allowed w :=
  ⟨rfl, rfl, rfl, rfl, Jvm.goesOn_of_eq rfl⟩

/-- Two stretches that keep within the allowed lines are one that does. -/
theorem Reaches.trans (h : w.Reaches allowed w') (h' : w'.Reaches allowed w'') :
    w.Reaches allowed w'' :=
  ⟨h'.host.trans h.host, h'.insideHook.trans h.insideHook, h'.pendingStart.trans h.pendingStart,
    h'.agent.trans h.agent, h.jvm.trans h'.jvm⟩

/-- The session has a library that is within reach of this one. -/
def LeadsTo (allowed : String → Prop) (w₀ : Library) (s : Session Library) : Prop :=
  w₀.Reaches allowed s.world

/-- Whether a session is within reach is told by its library alone. -/
theorem isWorldly_leadsTo : Session.IsWorldly (w₀.LeadsTo allowed) := by
  intro s s' hworld hs
  rw [LeadsTo, hworld]
  exact hs

/-- A change of the library is safe if it stays within reach. -/
theorem safe_modifyWorld {g : Library → Library} (h : ∀ w : Library, w.Reaches allowed (g w)) :
    Safe (w₀.LeadsTo allowed) (Act.modifyWorld g) :=
  fun s hs => ⟨(), _, rfl, hs.trans (h s.world)⟩

theorem safe_vm : Safe (w₀.LeadsTo allowed) vm :=
  fun s hs => ⟨s.world.jvm, s, rfl, hs⟩

/-- A change of the JVM is safe if its calls go on. -/
theorem safe_modifyVm {g : Jvm → Jvm} (h : ∀ vm : Jvm, vm.GoesOn allowed (g vm)) :
    Safe (w₀.LeadsTo allowed) (modifyVm g) :=
  safe_modifyWorld fun w => ⟨rfl, rfl, rfl, rfl, h w.jvm⟩

/-- So is a change of the JVM that has an answer. -/
theorem safe_withVm {α : Type} {g : Jvm → α × Jvm} (h : ∀ vm : Jvm, vm.GoesOn allowed (g vm).2) :
    Safe (w₀.LeadsTo allowed) (withVm g) :=
  fun s hs => ⟨(g s.world.jvm).1, _, rfl,
    hs.trans ⟨rfl, rfl, rfl, rfl, h s.world.jvm⟩⟩

theorem safe_trace {line : String} (h : allowed line) : Safe (w₀.LeadsTo allowed) (trace line) :=
  safe_modifyVm fun _ => Jvm.goesOn_trace h

/-- A local reference is handed out without a call that leaves a line. -/
theorem safe_newRef (object : JvmObject) :
    Safe (w₀.LeadsTo allowed) (withVm fun vm => vm.newRef object) :=
  safe_withVm fun _ => Jvm.goesOn_of_eq rfl

/-- A block of memory is handed out without a call that leaves a line. -/
theorem safe_newBlock (content : Bytes) :
    Safe (w₀.LeadsTo allowed) (withVm fun vm => vm.newBlock content) :=
  safe_withVm fun _ => Jvm.goesOn_of_eq rfl

/-- A block of memory is taken back without a call that leaves a line, live or not. -/
theorem safe_freeBlock (block : MemoryBlock) :
    Safe (w₀.LeadsTo allowed) (modifyVm fun vm => vm.freeBlock block) := by
  refine safe_modifyVm fun vm => Jvm.goesOn_of_eq ?_
  unfold Jvm.freeBlock
  split <;> rfl

end Library

/-! ### The native interface -/

namespace NativeTable

open Library

variable (hallowed : ∀ line, ToolFunction.Discreet line → allowed line)

/-- A call begins within reach if its line is allowed; one that is made while an exception is pending is
only counted. -/
theorem safe_begin_ {text : Option String} (h : ∀ line ∈ text, allowed line) :
    Safe (w₀.LeadsTo allowed) (begin_ text) := by
  have hcount : Safe (w₀.LeadsTo allowed)
      (modifyVm fun vm => { vm with callsWhilePending := vm.callsWhilePending + 1 }) :=
    safe_modifyVm fun _ => Jvm.goesOn_of_eq rfl
  refine safe_vm.bind fun vm => ?_
  cases text with
  | none =>
    cases vm.exceptionPending with
    | false => exact (settles_pure ()).safe
    | true => exact hcount.bind fun _ => (settles_pure ()).safe
  | some line =>
    have htrace : Safe (w₀.LeadsTo allowed) (trace line) := safe_trace (h line rfl)
    cases vm.exceptionPending with
    | false => exact htrace
    | true => exact hcount.bind fun _ => htrace

/-- A call that leaves a line begins within reach if that line is allowed. -/
theorem safe_begin_some {line : String} (h : allowed line) :
    Safe (w₀.LeadsTo allowed) (begin_ (some line)) := by
  refine safe_begin_ fun line' hline => ?_
  cases hline
  exact h

/-- Throwing leaves no line. -/
theorem safe_throw_ : Safe (w₀.LeadsTo allowed) throw_ := by
  have hpending : Safe (w₀.LeadsTo allowed)
      (modifyVm fun vm => { vm with exceptionPending := true }) :=
    safe_modifyVm fun _ => Jvm.goesOn_of_eq rfl
  exact hpending.bind fun _ => (settles_pure _).safe

/-- What comes of a call is taken from its script without leaving a line. -/
theorem safe_nextFault (f : NativeFunction) :
    Safe (w₀.LeadsTo allowed) (withVm fun vm => vm.nextFault f) :=
  safe_withVm fun _ => Jvm.goesOn_of_eq rfl

/-- A call that may fail reaches as far as one that does not. -/
theorem safe_mayFail {α : Type} (f : NativeFunction) (nothing : α) {body : Act Library α}
    (h : Safe (w₀.LeadsTo allowed) body) : Safe (w₀.LeadsTo allowed) (mayFail f nothing body) := by
  refine (safe_nextFault f).bind fun fault => ?_
  rcases fault with _ | _ | _
  · exact h
  · exact safe_throw_.bind fun _ => (settles_pure _).safe
  · exact (settles_pure _).safe

/-- A call that may answer null reaches as far as one that does not. -/
theorem safe_mayBeNull {α : Type} (f : NativeFunction) (nothing : α) {body : Act Library α}
    (h : Safe (w₀.LeadsTo allowed) body) : Safe (w₀.LeadsTo allowed) (mayBeNull f nothing body) := by
  refine (safe_nextFault f).bind fun fault => ?_
  cases fault with
  | none => exact h
  | some fault => exact (settles_pure _).safe

theorem safe_answer (object : JvmObject) : Safe (w₀.LeadsTo allowed) (answer object) :=
  (safe_newRef object).bind fun _ => (settles_pure _).safe

theorem safe_exceptionCheck : Safe (w₀.LeadsTo allowed) exceptionCheck :=
  safe_vm.bind fun _ => (settles_pure _).safe

/-- A reference is given back without a line, known or not. -/
theorem safe_deleteLocalRef (o : Option JvmRef) : Safe (w₀.LeadsTo allowed) (deleteLocalRef o) := by
  refine safe_modifyVm fun vm => Jvm.goesOn_of_eq ?_
  unfold Jvm.deleteRef
  split
  · split <;> rfl
  · rfl

/-- Characters of a string are given back without a line. -/
theorem safe_releaseStringChars (block : MemoryBlock) :
    Safe (w₀.LeadsTo allowed) (releaseStringChars block) :=
  (safe_begin_ fun _ hline => nomatch hline).bind fun _ => safe_freeBlock block

/-- The length of an array is asked for without a line. -/
theorem safe_getArrayLength (o : Option JvmRef) :
    Safe (w₀.LeadsTo allowed) (getArrayLength o) := by
  refine (safe_begin_ fun _ hline => nomatch hline).bind fun _ =>
    safe_mayBeNull _ _ (safe_vm.bind fun vm => ?_)
  split
  · exact (settles_pure _).safe
  · split <;> exact (settles_pure _).safe

include hallowed

/-- Finding a class reaches no further than its line, which is discreet. -/
theorem safe_findClass (name : String) : Safe (w₀.LeadsTo allowed) (findClass name) := by
  have hline : allowed ("FindClass " ++ name) :=
    hallowed _ (ToolFunction.discreet_append (by decide) _)
  refine (safe_begin_some hline).bind fun _ => safe_mayFail _ _ (safe_vm.bind fun vm => ?_)
  split
  · exact safe_throw_
  · exact safe_answer _

/-- The class of an object is answered within reach. -/
theorem safe_getObjectClass (o : Option JvmRef) :
    Safe (w₀.LeadsTo allowed) (getObjectClass o) := by
  refine safe_vm.bind fun vm => ?_
  have hline : allowed ("GetObjectClass " ++ vm.show_ o) :=
    hallowed _ (ToolFunction.discreet_append (by decide) _)
  exact (safe_begin_some hline).bind fun _ => safe_answer _

/-- A method is looked up within reach, found or not. -/
theorem safe_getMethodId (c : Option JvmRef) (name signature : String) :
    Safe (w₀.LeadsTo allowed) (getMethodId c name signature) := by
  refine safe_vm.bind fun vm => ?_
  have hline : allowed ("GetMethodID " ++ vm.show_ c ++ " " ++ name ++ signature) := by
    refine hallowed _ ?_
    simp only [String.append_assoc]
    exact ToolFunction.discreet_append (by decide) _
  refine (safe_begin_some hline).bind fun _ => safe_mayFail _ _ (safe_vm.bind fun vm => ?_)
  split
  · exact safe_throw_.bind fun _ => (settles_pure _).safe
  · exact (settles_pure _).safe

/-- A method without a result is called within reach, thrown or not. -/
theorem safe_callVoidMethod (o : Option JvmRef) (m : MethodId) :
    Safe (w₀.LeadsTo allowed) (callVoidMethod o m) := by
  refine safe_vm.bind fun vm => ?_
  have hline : allowed ("CallVoidMethodA " ++ vm.show_ o ++ " " ++ m.name) := by
    refine hallowed _ ?_
    simp only [String.append_assoc]
    exact ToolFunction.discreet_append (by decide) _
  refine (safe_begin_some hline).bind fun _ => safe_mayFail _ _ ?_
  split
  · split
    · exact safe_throw_.bind fun _ => (settles_pure _).safe
    · exact (settles_pure _).safe
  · exact (settles_pure _).safe

/-- Clearing the exception leaves one discreet line. -/
theorem safe_exceptionClear : Safe (w₀.LeadsTo allowed) exceptionClear := by
  have hline : allowed ("ExceptionClear" ++ "") :=
    hallowed _ (ToolFunction.discreet_append (by decide) _)
  exact (safe_trace hline).bind fun _ => safe_modifyVm fun _ => Jvm.goesOn_of_eq rfl

/-- A string is made within reach. -/
theorem safe_newString (text : String) : Safe (w₀.LeadsTo allowed) (newString text) := by
  have hline : allowed ("NewStringUTF " ++ text) :=
    hallowed _ (ToolFunction.discreet_append (by decide) _)
  refine (safe_begin_some hline).bind fun _ => safe_mayFail _ _ (safe_vm.bind fun vm => ?_)
  split
  · exact safe_throw_
  · exact safe_answer _

/-- Characters of a string are handed out within reach, or none are. -/
theorem safe_getStringChars (o : Option JvmRef) :
    Safe (w₀.LeadsTo allowed) (getStringChars o) := by
  refine safe_vm.bind fun vm => ?_
  have hline : allowed ("GetStringUTFChars " ++ vm.show_ o) :=
    hallowed _ (ToolFunction.discreet_append (by decide) _)
  refine (safe_begin_some hline).bind fun _ => safe_mayBeNull _ _ ?_
  split
  · refine safe_vm.bind fun vm => ?_
    split
    · exact (settles_pure _).safe
    · exact (safe_newBlock _).bind fun _ => (settles_pure _).safe
  · exact (settles_pure _).safe

/-- Octets of an array are copied within reach, out of bounds or not. -/
theorem safe_getByteArrayRegion (o : Option JvmRef) (start length : Int) :
    Safe (w₀.LeadsTo allowed) (getByteArrayRegion o start length) := by
  refine safe_vm.bind fun vm => ?_
  have hline : allowed ("GetByteArrayRegion " ++ vm.show_ o ++ " " ++ toString start ++ " "
      ++ toString length) := by
    refine hallowed _ ?_
    simp only [String.append_assoc]
    exact ToolFunction.discreet_append (by decide) _
  refine (safe_begin_some hline).bind fun _ => safe_mayFail _ _ ?_
  split
  · split
    · exact safe_throw_.bind fun _ => (settles_pure _).safe
    · exact (settles_pure _).safe
  · exact safe_throw_.bind fun _ => (settles_pure _).safe

omit hallowed in
/-- What a loader answers for one of its methods leaves no line of its own, whichever method it is. -/
theorem safe_callLoader (index : Nat) (l : JvmLoader) (m : MethodId) (arg : Option JvmRef) :
    Safe (w₀.LeadsTo allowed) (callLoader index l m arg) := by
  unfold callLoader
  split
  · exact safe_throw_
  split
  · split
    · exact safe_answer _
    · exact (settles_pure _).safe
  split
  · dsimp only
    split
    · exact safe_answer _
    · split
      · exact (settles_pure _).safe
      · exact safe_throw_
  split
  · split
    · exact safe_answer _
    · exact (settles_pure _).safe
  · exact safe_throw_

end NativeTable

/-! ### Loading classes -/

section Hooks

open Library

variable {hook hook' : LoadHook} (hallowed : ∀ line, ToolFunction.Discreet line → allowed line)
  (hhook : ∀ e, Concur (w₀.LeadsTo allowed) (hook e) (hook' e))

namespace ClassLoading

include hhook

/-- An event of the hook reaches as far as the hook does, and one that answers a class gives its block
back. -/
theorem concur_fireLoad (e : LoadEvent) :
    Concur (w₀.LeadsTo allowed) (fireLoad hook e) (fireLoad hook' e) := by
  refine safe_vm.concur.bind fun vm => ?_
  split
  · refine (hhook e).bind fun out => ?_
    cases out with
    | none => exact concur_pure _
    | some f => exact (safe_freeBlock f.block).concur.bind fun _ => concur_pure _
  · exact concur_pure _

/-- A class that is loaded reaches as far as the hook does. -/
theorem concur_loadClass (name : Option Bytes) (loader : Option Nat) (bytes : Option Bytes)
    (length : Int) :
    Concur (w₀.LeadsTo allowed) (loadClass hook name loader bytes length)
      (loadClass hook' name loader bytes length) := by
  refine (concur_fireLoad hhook _).bind fun woven => ?_
  have hpush (c : JvmClass) : Safe (w₀.LeadsTo allowed)
      (modifyVm fun vm => { vm with classes := vm.classes.push c }) :=
    safe_modifyVm fun _ => Jvm.goesOn_of_eq rfl
  exact (hpush _).concur.bind fun _ => concur_pure _

/-- So does any event of a load, of a first one and of one that is repeated. -/
theorem concur_load (e : LoadEvent) :
    Concur (w₀.LeadsTo allowed) (load hook e) (load hook' e) := by
  unfold load
  split
  · exact concur_fireLoad hhook e
  · exact concur_loadClass hhook _ _ _ _

/-- A class that is loaded from a script leaves one line more, which begins with the label. -/
theorem concur_loadScripted {label : String}
    (hlabel : ∀ rest : String, allowed (label ++ rest)) (loader : Option Nat) (name : String)
    (bytes : Bytes) :
    Concur (w₀.LeadsTo allowed) (loadScripted hook label loader name bytes)
      (loadScripted hook' label loader name bytes) := by
  refine (concur_loadClass hhook _ loader _ _).bind fun woven => (safe_trace ?_).concur
  simp only [String.append_assoc]
  exact hlabel _

/-- A class that is transformed again reaches as far as the hook does; only its bytes change. -/
theorem concur_retransformClass (index : Nat) :
    Concur (w₀.LeadsTo allowed) (retransformClass hook index) (retransformClass hook' index) := by
  refine safe_vm.concur.bind fun vm => (concur_fireLoad hhook _).bind fun woven => ?_
  have hcurrent (current : Bytes) : Safe (w₀.LeadsTo allowed) (modifyVm fun vm =>
      { vm with classes := vm.classes.modify index fun c => { c with current } }) :=
    safe_modifyVm fun _ => Jvm.goesOn_of_eq rfl
  exact (hcurrent _).concur

end ClassLoading

include hallowed hhook in
/-- A method with a result reaches as far as the hook that is called for a class loaded meanwhile. -/
theorem NativeTable.concur_callObjectMethod (o : Option JvmRef) (m : MethodId)
    (arg : Option JvmRef) :
    Concur (w₀.LeadsTo allowed) (callObjectMethod hook o m arg) (callObjectMethod hook' o m arg) := by
  refine safe_vm.concur.bind fun vm => ?_
  have hline : allowed ("CallObjectMethodA " ++ vm.show_ o ++ " " ++ m.name
      ++ (if takesArgument m then " " ++ vm.show_ arg else "")) := by
    refine hallowed _ ?_
    simp only [String.append_assoc]
    exact ToolFunction.discreet_append (by decide) _
  have hlabel (rest : String) : allowed ("nested load" ++ rest) :=
    hallowed _ (ToolFunction.discreet_append (by decide) _)
  refine (safe_begin_some hline).concur.bind fun _ => ?_
  split
  · refine (safe_mayFail _ _ ?_).concur
    split
    · exact safe_throw_
    · split
      · exact (settles_pure _).safe
      · exact safe_answer _
  · next index =>
    have hcall : Concur (w₀.LeadsTo allowed)
        (mayFail .callObjectMethod none (callLoader index (vm.loader index) m arg))
        (mayFail .callObjectMethod none (callLoader index (vm.loader index) m arg)) :=
      (safe_mayFail _ _ (safe_callLoader _ _ m arg)).concur
    dsimp only
    split
    · split
      · exact (ClassLoading.concur_loadScripted hhook hlabel _ _ _).bind fun _ => hcall
      · exact hcall
    · exact hcall
  · refine (safe_mayFail _ _ ?_).concur
    split
    · exact safe_throw_
    · split
      · exact (settles_pure _).safe
      · exact safe_answer _
  · exact safe_throw_.concur

end Hooks

end AdviceWeaver

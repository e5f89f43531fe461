import AdviceWeaver.Proofs.Library.Reach

/-!
# How far questions to loaders reach

The library asks a class loader through the native interface of the JVM. That keeps the library within
reach, it does not panic, and what comes of it does not depend on which of two hooks the JVM calls for a
class that it loads meanwhile, if these concur.

## Main results

* `LoaderAccess.concur_describe` — what a loader is.
* `LoaderAccess.agree_ops` — the loaders are asked in the same way with both hooks.
-/

namespace AdviceWeaver

open Act Library

variable {allowed : String → Prop} {w₀ : Library} {hook hook' : LoadHook}
  (hallowed : ∀ line, ToolFunction.Discreet line → allowed line)
  (hhook : ∀ e, Concur (w₀.LeadsTo allowed) (hook e) (hook' e))

/-! ### Using the native interface -/

namespace NativeInterface

/-- A reference is dropped within reach, if there is one. -/
theorem safe_drop (o : Option JvmRef) : Safe (w₀.LeadsTo allowed) (drop o) := by
  unfold drop
  split
  · exact NativeTable.safe_deleteLocalRef o
  · exact (settles_pure ()).safe

/-- Using a reference and dropping it concurs if the uses do. -/
theorem concur_using_ {α : Type} {use use' : Act Library α} (o : Option JvmRef)
    (huse : Concur (w₀.LeadsTo allowed) use use') :
    Concur (w₀.LeadsTo allowed) (using_ o use) (using_ o use') :=
  huse.bind fun _ => (safe_drop o).concur.bind fun _ => concur_pure _

include hallowed

/-- Asking whether the thread is attached leaves one discreet line. -/
theorem safe_isAttached : Safe (w₀.LeadsTo allowed) isAttached := by
  have hline : allowed ("GetEnv jni " ++ Text.hex 1 version) :=
    hallowed _ (ToolFunction.discreet_append (by decide) _)
  exact (safe_trace hline).bind fun _ => safe_vm.bind fun _ => (settles_pure _).safe

/-- An exception that is pending is cleared within reach. -/
theorem safe_takeException : Safe (w₀.LeadsTo allowed) takeException := by
  refine NativeTable.safe_exceptionCheck.bind fun pending => ?_
  cases pending with
  | false => exact (settles_pure _).safe
  | true => exact (NativeTable.safe_exceptionClear hallowed).bind fun _ => (settles_pure _).safe

/-- A null answer is followed by clearing the exception, any other by nothing. -/
theorem safe_orClear {α : Type} (answer : Option α) :
    Safe (w₀.LeadsTo allowed) (orClear answer) := by
  cases answer with
  | none => exact (safe_takeException hallowed).bind fun _ => (settles_pure _).safe
  | some a => exact (settles_pure _).safe

/-- A class is found within reach, or its exception is cleared. -/
theorem safe_findClass (name : String) : Safe (w₀.LeadsTo allowed) (findClass name) := by
  unfold findClass
  split
  · exact (NativeTable.safe_findClass hallowed name).bind fun _ => safe_orClear hallowed _
  · exact (settles_pure _).safe

/-- A method is looked up within reach, or its exception is cleared. -/
theorem safe_getMethodId (c : Option JvmRef) (name signature : String) :
    Safe (w₀.LeadsTo allowed) (getMethodId c name signature) := by
  unfold getMethodId
  split
  · exact (NativeTable.safe_getMethodId hallowed c name signature).bind fun _ =>
      safe_orClear hallowed _
  · exact (settles_pure _).safe

/-- A string is made within reach, or its exception is cleared. -/
theorem safe_newString (text : String) : Safe (w₀.LeadsTo allowed) (newString text) := by
  unfold newString
  split
  · exact (NativeTable.safe_newString hallowed text).bind fun _ => safe_orClear hallowed _
  · exact (settles_pure _).safe

/-- The characters of a string are read within reach, and given back where there are any. -/
theorem safe_getText (o : Option JvmRef) : Safe (w₀.LeadsTo allowed) (getText o) := by
  unfold getText
  split
  · exact (settles_pure _).safe
  · refine (NativeTable.safe_getStringChars hallowed o).bind fun chars => ?_
    cases chars with
    | none => exact (settles_pure _).safe
    | some block =>
      exact (NativeTable.safe_releaseStringChars block).bind fun _ => (settles_pure _).safe

/-- The octets of an array are read within reach, also if reading them throws. -/
theorem safe_getBytes (o : Option JvmRef) : Safe (w₀.LeadsTo allowed) (getBytes o) := by
  unfold getBytes
  split
  · exact (settles_pure _).safe
  · refine (NativeTable.safe_getArrayLength o).bind fun length => ?_
    refine (NativeTable.safe_getByteArrayRegion hallowed o 0 length).bind fun bytes => ?_
    refine (safe_takeException hallowed).bind fun thrown => ?_
    cases thrown <;> exact (settles_pure _).safe

end NativeInterface

/-! ### Asking loaders -/

namespace LoaderAccess

open NativeInterface

/-- A view of a loader is added to those of the library, which nothing in reach looks at. -/
theorem safe_new (ref : JvmRef) (owned : Bool) : Safe (w₀.LeadsTo allowed) (new ref owned) := by
  refine safe_world.bind fun w => ?_
  have hpush : Safe (w₀.LeadsTo allowed) (Act.modifyWorld fun w =>
      { w with loaderViews := w.loaderViews.push ⟨ref, owned, none⟩ }) :=
    safe_modifyWorld fun _ => ⟨rfl, rfl, rfl, rfl, Jvm.goesOn_of_eq rfl⟩
  exact hpush.bind fun _ => (settles_pure _).safe

/-- The reference of a loader is looked up in the library. -/
theorem safe_ref (l : LoaderId) : Safe (w₀.LeadsTo allowed) (ref l) :=
  safe_world.bind fun _ => (settles_pure _).safe

/-- A loader is released within reach, and only a reference of its own is dropped. -/
theorem safe_release (l : LoaderId) : Safe (w₀.LeadsTo allowed) (release l) := by
  refine safe_world.bind fun w => ?_
  split
  · split
    · exact safe_drop _
    · exact (settles_pure _).safe
  · exact (settles_pure _).safe

section Methods

include hallowed

/-- The six methods are looked up within reach, one by one. -/
theorem safe_lookUpMethods (classClass loaderClass streamClass : Option JvmRef) :
    Safe (w₀.LeadsTo allowed) (lookUpMethods classClass loaderClass streamClass) := by
  have hget (c : Option JvmRef) (name signature : String) :
      Safe (w₀.LeadsTo allowed) (NativeInterface.getMethodId c name signature) :=
    NativeInterface.safe_getMethodId hallowed c name signature
  exact (hget _ _ _).bind fun _ => (hget _ _ _).bind fun _ => (hget _ _ _).bind fun _ =>
    (hget _ _ _).bind fun _ => (hget _ _ _).bind fun _ => (hget _ _ _).bind fun _ =>
    (settles_pure _).safe

/-- What uses a class stays within reach if it does so for every reference. -/
theorem safe_withClass {α : Type} (name : String) {use : Option JvmRef → Act Library (Option α)}
    (huse : ∀ c, Safe (w₀.LeadsTo allowed) (use c)) :
    Safe (w₀.LeadsTo allowed) (withClass name use) := by
  refine (NativeInterface.safe_findClass hallowed name).bind fun found => ?_
  cases found with
  | none => exact (settles_pure _).safe
  | some c => exact (concur_using_ _ (huse (some c)).concur).safe

/-- The methods are looked up within reach and kept; a second time no call is made. -/
theorem safe_methodIds : Safe (w₀.LeadsTo allowed) methodIds := by
  have hlookUp : Safe (w₀.LeadsTo allowed)
      (withClass "java/lang/Class" fun classClass =>
        withClass "java/lang/ClassLoader" fun loaderClass =>
          withClass "java/io/InputStream" fun streamClass =>
            return some (← lookUpMethods classClass loaderClass streamClass)) :=
    safe_withClass hallowed _ fun c => safe_withClass hallowed _ fun l =>
      safe_withClass hallowed _ fun s =>
        (safe_lookUpMethods hallowed c l s).bind fun _ => (settles_pure _).safe
  have hkeep (found : Option MethodIds) : Safe (w₀.LeadsTo allowed)
      (Act.modifyWorld fun w => { w with methodIds := found }) :=
    safe_modifyWorld fun _ => ⟨rfl, rfl, rfl, rfl, Jvm.goesOn_of_eq rfl⟩
  refine safe_world.bind fun w => ?_
  split
  · exact (settles_pure _).safe
  · refine hlookUp.bind fun found => ?_
    cases found with
    | none => exact (settles_pure _).safe
    | some ids => exact (hkeep _).bind fun _ => (settles_pure _).safe

/-- The methods are there or the question fails, within reach in either case. -/
theorem safe_requireMethods : Safe (w₀.LeadsTo allowed) requireMethods := by
  refine (safe_methodIds hallowed).bind fun found => ?_
  cases found <;> exact (settles_pure _).safe

/-- Making a string and using it concurs if the uses do. -/
theorem concur_withString {α : Type} (text shown : String)
    {use use' : Option JvmRef → Act Library (Except LoaderError α)}
    (huse : ∀ s, Concur (w₀.LeadsTo allowed) (use s) (use' s)) :
    Concur (w₀.LeadsTo allowed) (withString text shown use) (withString text shown use') := by
  refine (NativeInterface.safe_newString hallowed text).concur.bind fun made => ?_
  cases made with
  | none => exact concur_pure _
  | some s => exact concur_using_ _ (huse (some s))

/-- A stream is closed within reach, and what closing it throws is cleared. -/
theorem safe_closeStream (ids : MethodIds) (stream : JvmRef) :
    Safe (w₀.LeadsTo allowed) (closeStream ids stream) := by
  unfold closeStream
  split
  · exact (NativeTable.safe_callVoidMethod hallowed _ _).bind fun _ =>
      (safe_takeException hallowed).bind fun _ => (settles_pure _).safe
  · exact (settles_pure _).safe

end Methods

include hallowed hhook

/-- A method that is called on a loader concurs, as do the three ways in which it may end. -/
theorem concur_callMethod (o : Option JvmRef) (m : Option MethodId) (name : String)
    (arg : Option JvmRef) :
    Concur (w₀.LeadsTo allowed) (callMethod hook o m name arg) (callMethod hook' o m name arg) := by
  cases m with
  | none => exact concur_pure _
  | some m =>
    refine (NativeTable.concur_callObjectMethod hallowed hhook o m arg).bind fun result => ?_
    refine (safe_takeException hallowed).concur.bind fun thrown => ?_
    cases thrown <;> exact concur_pure _

/-- **What a loader is** can be asked with both hooks. -/
theorem concur_describe (loader : JvmRef) :
    Concur (w₀.LeadsTo allowed) (describe hook loader) (describe hook' loader) := by
  refine (safe_methodIds hallowed).concur.bind fun ids => ?_
  split
  · exact concur_pure _
  · refine (NativeTable.safe_getObjectClass hallowed _).concur.bind fun c => concur_using_ c ?_
    refine (NativeTable.concur_callObjectMethod hallowed hhook c _ none).bind fun name => ?_
    refine concur_using_ name ?_
    refine (safe_takeException hallowed).concur.bind fun thrown => ?_
    cases thrown with
    | true => exact concur_pure _
    | false =>
      refine (safe_getText hallowed name).concur.bind fun text => ?_
      cases text <;> exact concur_pure _

/-- The description of a loader is the same with both hooks, and is kept with the loader. -/
theorem concur_description (l : LoaderId) :
    Concur (w₀.LeadsTo allowed) (description hook l) (description hook' l) := by
  have hkeep (found : LoaderDescription) : Safe (w₀.LeadsTo allowed) (Act.modifyWorld fun w =>
      { w with loaderViews := w.loaderViews.modify l fun v =>
        { v with description := some found } }) :=
    safe_modifyWorld fun _ => ⟨rfl, rfl, rfl, rfl, Jvm.goesOn_of_eq rfl⟩
  refine safe_world.concur.bind fun w => ?_
  split
  · exact concur_pure _
  · exact (safe_ref l).concur.bind fun r => (concur_describe hallowed hhook r).bind fun found =>
      (hkeep found).concur.bind fun _ => concur_pure _

/-- The parent of a loader is the same with both hooks. -/
theorem concur_parent (l : LoaderId) :
    Concur (w₀.LeadsTo allowed) (parent hook l) (parent hook' l) := by
  refine (safe_requireMethods hallowed).concur.bind fun ids => ?_
  rcases ids with e | ids
  · exact concur_pure _
  · refine (safe_ref l).concur.bind fun r => ?_
    refine (concur_callMethod hallowed hhook _ ids.getParent _ _).bind fun above => ?_
    rcases above with e | _ | above
    · exact concur_pure _
    · exact concur_pure _
    · exact (safe_new above true).concur.bind fun _ => concur_pure _

/-- Whether a loader can load a class is the same with both hooks. -/
theorem concur_canLoad (l : LoaderId) (name : String) :
    Concur (w₀.LeadsTo allowed) (canLoad hook l name) (canLoad hook' l name) := by
  refine (safe_requireMethods hallowed).concur.bind fun ids => ?_
  rcases ids with e | ids
  · exact concur_pure _
  · refine concur_withString hallowed name name fun arg => (safe_ref l).concur.bind fun r => ?_
    refine (concur_callMethod hallowed hhook _ ids.loadClass _ _).bind fun found => ?_
    rcases found with e | c
    · cases e <;> exact concur_pure _
    · exact (safe_drop c).concur.bind fun _ => concur_pure _

/-- The bytes of a stream are the same with both hooks. -/
theorem concur_readStream (ids : MethodIds) (stream : JvmRef) :
    Concur (w₀.LeadsTo allowed) (readStream hook ids stream) (readStream hook' ids stream) := by
  refine (concur_callMethod hallowed hhook _ ids.readAllBytes _ _).bind fun array => ?_
  rcases array with e | array
  · exact concur_pure _
  · exact concur_using_ array
      ((safe_getBytes hallowed array).concur.bind fun _ => concur_pure _)

/-- The bytes of a class are the same with both hooks, wherever the question stops. -/
theorem concur_classFile (l : LoaderId) (name : String) :
    Concur (w₀.LeadsTo allowed) (classFile hook l name) (classFile hook' l name) := by
  refine (safe_requireMethods hallowed).concur.bind fun ids => ?_
  rcases ids with e | ids
  · exact concur_pure _
  · refine concur_withString hallowed (name ++ ".class") name fun arg =>
      (safe_ref l).concur.bind fun r => ?_
    refine (concur_callMethod hallowed hhook _ ids.getResourceAsStream _ _).bind fun found => ?_
    rcases found with e | _ | stream
    · exact concur_pure _
    · exact concur_pure _
    · exact concur_using_ _ ((concur_readStream hallowed hhook ids stream).bind fun _ =>
        (safe_closeStream hallowed ids stream).concur.bind fun _ => concur_pure _)

/-- **The loaders are asked in the same way** with both hooks. -/
theorem agree_ops : (ops hook).Agree (w₀.LeadsTo allowed) (ops hook') where
  describe l := (concur_description hallowed hhook l).agree
  parent l := (concur_parent hallowed hhook l).agree
  canLoad l name := (concur_canLoad hallowed hhook l name).agree
  classFile l name := (concur_classFile hallowed hhook l name).agree
  release l := (safe_release l).concur.agree
  load e := (ClassLoading.concur_load hhook e).agree
  extent := rfl

end LoaderAccess

end AdviceWeaver

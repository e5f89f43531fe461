import AdviceWeaver.ClassFile.Error
import AdviceWeaver.Failure
import AdviceWeaver.Locator.Error

/-!
# Why a module is not applied

The causes for which an instrumentation module yields no rule, and the wording of each.
-/

namespace AdviceWeaver

/-- A failure to apply an instrumentation module. -/
inductive CompileError where
  | init (message : String)
  | initPanicked
  /-- The place of the hook class cannot be read. -/
  | locator (hookClass : String) (cause : LocatorError)
  | hookNotFound (hookClass place : String)
  | hookMalformed (hookClass : String) (cause : FormatError)
  | noHookMethods (hookClass : String)
deriving DecidableEq, Repr, Inhabited

/-- The wording of a failure. -/
def CompileError.message : CompileError → String
  | .init message => "init failed: " ++ message
  | .initPanicked => "init panicked"
  | .locator hookClass cause => "cannot read hook class " ++ hookClass ++ ": " ++ cause.message
  | .hookNotFound hookClass place => "hook class " ++ hookClass ++ " not found in " ++ place
  | .hookMalformed hookClass cause =>
    "hook class " ++ hookClass ++ " is malformed: " ++ cause.message
  | .noHookMethods hookClass =>
    "hook class " ++ hookClass
      ++ " declares neither static onMethodEnter()V nor static onMethodExit()V"

/-- The kind of a failure. -/
def CompileError.kind : CompileError → String
  | .init _ => "Init"
  | .initPanicked => "InitPanicked"
  | .locator .. => "Locator"
  | .hookNotFound .. => "HookNotFound"
  | .hookMalformed .. => "HookClass"
  | .noHookMethods _ => "NoHookMethods"

instance : Failure CompileError := ⟨CompileError.kind, CompileError.message⟩

end AdviceWeaver

import AdviceWeaver.Library.Host

/-!
# Entry points

What the JVM calls in an agent library. While the JVM is still being set up no class can be
transformed again, so a library that is loaded then only notes the start and makes it once the JVM
has started; one that is attached to a running JVM starts right away. Either way the classes are
restored when the JVM is about to end. When the library is unloaded its state is forgotten.
-/

namespace AdviceWeaver.EntryPoints

open Library

/-- What an entry point answers the JVM. -/
abbrev Status := Int

/-- The entry point did its work. -/
def ok : Status := 0

/-- The entry point failed. -/
def failed : Status := -1

/-! ### Starting -/

/-- The option that names the archive of the hook classes. -/
def jarKey : String := "agent_jar"

/-- The options in the text that the JVM passes; one that is missing or no well-formed text counts
as empty. -/
def startupOptions (given : Option Bytes) : Act Library (Option AgentOptions) := do
  let text := (given.bind fun octets => Text.Utf8.decode? (octets.takeWhile (· ≠ 0))).getD ""
  match AgentOptions.parse text with
  | .ok options => return some options
  | .error e =>
    Act.log .error ("invalid agent options " ++ Text.quote text) [("error", e.message)]
    return none

/-- Where hook classes are read: in the archive, which is made visible to all loaders as well. -/
def hookLocator (jar : Option String) : Act Library (Except AgentError Locator) := do
  match jar with
  | none =>
    Act.log .warn ("no " ++ jarKey ++ " option, hook classes cannot be located") []
    return .ok (.memory [])
  | some path =>
    match ← JvmHost.addToBootstrapSearch (Text.Utf8.encode path) with
    | .error e => return .error (.host e)
    | .ok () =>
      return (Locator.openArchive (← Act.world).files path).mapError AgentError.locator

/-- Asks a catalog for its modules. -/
def askCatalog (choice : CatalogChoice) (context : AgentContext) : Act Library (List Module) := do
  let latest := (← Act.world).catalog
  let catalog := match choice with
    | .fixed catalog => catalog
    | .latest => latest
  let answer := catalog.make context
  if let some note := answer.note then Act.note (.text note)
  match answer.modules with
  | some modules => return modules
  | none => Act.panic

/-- Starts the instrumentation. -/
def start (s : PendingStart) : Act Library (Except AgentError Unit) := do
  let source := ConfigSource.composite [.options s.options, .environment (← Act.world).environment]
  let jar := source.get jarKey
  match ← hookLocator jar with
  | .error e => return .error e
  | .ok locator =>
    match Tracer.ofSource source with
    | .error e => return .error (.config e)
    | .ok tracer =>
      let modules ← askCatalog s.catalog ⟨jar, locator⟩
      let supported ← JvmHost.hostOps.supportsRetransform 0
      Act.log .info "starting instrumentation"
        [("descriptors", toString modules.length), ("retransform", toString supported)]
      onAgent (Agent.initializeWith JvmHost.loaderOps JvmHost.hostOps tracer 0 jar (return modules))

/-- Starts the instrumentation and logs a failure; says whether it was started. -/
def tryStart (s : PendingStart) : Act Library Bool := do
  match ← Act.attempt (start s) with
  | .ok (.ok ()) => return true
  | .ok (.error e) =>
    Act.log .error "cannot initialize instrumentation" [("error", e.message)]
    return false
  | .error _ =>
    Act.log .error "initialization panicked" []
    return false

/-! ### The life of the JVM -/

/-- Sets the host up and logs a failure; says whether there is a host. -/
def setUpHost (vmInit vmDeath : Option Listener) : Act Library Bool := do
  match ← JvmHost.install vmInit vmDeath with
  | .ok () => return true
  | .error e =>
    Act.log .error "cannot set up JVMTI" [("error", e.message)]
    return false

/-- Enables an event and logs a failure; says whether it is enabled. -/
def enableEvent (level : Level) (event : Nat) (message : String) : Act Library Bool := do
  match ← ToolTable.setEventNotificationMode JvmHost.hook true event with
  | .ok () => return true
  | .error code =>
    Act.whenKept level do
      let error ← ToolInterface.describeError code
      Act.log level message [("error", error)]
    return false

/-- The library is loaded while the JVM is being set up. -/
def onLoad (options : Option Bytes) (catalog : CatalogChoice) : Act Library Status := do
  match ← startupOptions options with
  | none => return failed
  | some options =>
    if !(← setUpHost (some .library) (some .library)) then return failed
    if !(← enableEvent .error JvmEvent.vmInit "cannot enable VMInit") then return failed
    if !(← enableEvent .error JvmEvent.vmDeath "cannot enable VMDeath") then return failed
    Act.modifyWorld fun w => { w with pendingStart := some ⟨options, catalog⟩ }
    return ok

/-- The library is attached to a running JVM. -/
def onAttach (options : Option Bytes) (catalog : CatalogChoice) : Act Library Status := do
  match ← startupOptions options with
  | none => return failed
  | some options =>
    if !(← setUpHost none (some .library)) then return failed
    let _ ← enableEvent .warn JvmEvent.vmDeath
      "cannot enable VMDeath, classes stay instrumented on exit"
    if ← tryStart ⟨options, catalog⟩ then return ok else return failed

/-- The JVM has started: a start that waits for it is made, in any monad that can act on the
library. -/
def vmInitWith {m : Type → Type} [Monad m] [MonadLiftT (Act Library) m]
    (make : PendingStart → m Unit) : m Unit := do
  let w ← liftM (Act.world : Act Library Library)
  liftM (Act.modifyWorld fun w : Library => { w with pendingStart := none })
  match w.pendingStart, w.host with
  | some s, some _ => make s
  | _, _ => return ()

/-- The JVM has started. -/
def vmInit : Act Library Unit :=
  vmInitWith fun s => do
    let _ ← tryStart s

/-- The JVM is about to end: the classes are restored. -/
def vmDeath : Act Library Unit := do
  if !(← Act.world).agent.isInitialized then return
  match ← Act.attempt (onAgent (Agent.reset JvmHost.hostOps)) with
  | .ok (.ok ()) => return ()
  | .ok (.error e) => Act.log .warn "reset at VM death failed" [("error", e.message)]
  | .error _ => Act.log .error "reset at VM death panicked" []

/-- The library is unloaded. -/
def onUnload : Act Library Unit := do
  if ← onAgent Agent.discard then
    Act.log .debug "dropped instrumentation state on unload" []

/-! ### Events -/

/-- The JVM reports an event of its life; says whether someone listened. -/
def fire (event : Nat) (listener : Option Listener) (act : Act Library Unit) :
    Act Library Bool := do
  match listener with
  | none => return false
  | some listener =>
    if !(← vm).enabled.contains event then return false
    match listener with
    | .library => act
    | .noting text => Act.note (.text text)
    return true

/-- The JVM reports that it has started. -/
def fireVmInit : Act Library Bool := do
  fire JvmEvent.vmInit (← vm).callbacks.vmInit vmInit

/-- The JVM reports that it is about to end. -/
def fireVmDeath : Act Library Bool := do
  fire JvmEvent.vmDeath (← vm).callbacks.vmDeath vmDeath

end AdviceWeaver.EntryPoints

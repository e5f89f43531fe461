import AdviceWeaver.Hosting.Batches

/-!
# Installing pipelines

A pipeline is installed by registering it with a host and transforming the classes again that exist
already. Only those are taken that the pipeline may transform, as far as their name and loader tell.
It is taken out by unregistering it and transforming the classes again that it wove, which gives
them their initial form.
-/

namespace AdviceWeaver.Pipeline

variable {ε : Type}

/-- Whether a class that exists may be transformed. -/
def mayTransform (ops : LoaderOps ε) (p : Pipeline) (c : LoadedClass) : Act ε Bool := do
  if !c.modifiable then return false
  if ← p.ignore.coversName ops c.name c.loader then return false
  anyLoaderMatch p.rules
where
  /-- Whether some rule applies to the loader of the class; stops at the first one. -/
  anyLoaderMatch : List Rule → Act ε Bool
    | [] => return false
    | r :: rest => do
      if ← r.matchesLoader ops c.loader then return true
      anyLoaderMatch rest

/-- Registers a pipeline and transforms the classes again that it may transform. After a failure it
is no longer registered. -/
def installOn (ops : LoaderOps ε) (hosts : HostOps ε) (p : Pipeline) (h : HostId) :
    Act ε (Except HostError Unit) := do
  hosts.addTransformer h (.pipeline p)
  if !(← hosts.supportsRetransform h) then
    let _ ← hosts.removeTransformer h (.pipeline p)
    return .error .retransformUnsupported
  match ← hosts.loadedClasses h with
  | .error e =>
    let _ ← hosts.removeTransformer h (.pipeline p)
    return .error e
  | .ok loaded =>
    let candidates ← loaded.filterM (p.mayTransform ops)
    Act.log .debug ("retransforming " ++ toString candidates.length ++ " loaded classes") []
    retransformInBatches hosts h candidates
    return .ok ()

/-- Unregisters a pipeline, transforms the classes again that it wove, and forgets them. The result
is their number. -/
def resetOn (hosts : HostOps ε) (p : Pipeline) (h : HostId) : Act ε (Except HostError Nat) := do
  if !(← hosts.removeTransformer h (.pipeline p)) then
    Act.log .warn "transformer was not registered" []
  let names ← Act.recorded p.record
  match ← hosts.loadedClasses h with
  | .error e => return .error e
  | .ok loaded =>
    let restore := loaded.filter fun c => names.contains c.name
    retransformInBatches hosts h restore
    Act.clearRecord p.record
    return .ok restore.length

end AdviceWeaver.Pipeline

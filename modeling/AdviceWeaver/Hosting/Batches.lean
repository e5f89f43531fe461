import AdviceWeaver.Hosting.Host

/-!
# Retransformation in batches

Many classes are handed to a host in batches. If the host refuses a batch, its classes are tried one
at a time, so that one class that cannot be transformed does not keep the others from it.
-/

namespace AdviceWeaver

/-- The largest number of classes in one call. -/
def batchSize : Nat := 256

/-- A list cut into pieces of `size` items, the last one possibly shorter. -/
def batches {α : Type} (size : Nat) (items : List α) : List (List α) :=
  if size = 0 ∨ items = [] then [] else items.take size :: batches size (items.drop size)
termination_by items.length
decreasing_by
  have : items.length ≠ 0 := by simp_all
  simp only [List.length_drop]
  omega

variable {ε : Type}

/-- Transforms one class again; a refusal is logged. -/
def retransformOne (hosts : HostOps ε) (h : HostId) (c : LoadedClass) : Act ε Unit := do
  match ← hosts.retransform h [c] with
  | .ok () => return ()
  | .error e =>
    Act.log .warn ("cannot retransform " ++ c.name)
      [("type_name", c.name), ("loader", c.loader.render), ("error", e.message)]

/-- Transforms a batch again, if need be class by class. -/
def retransformBatch (hosts : HostOps ε) (h : HostId) (batch : List LoadedClass) :
    Act ε Unit := do
  match ← hosts.retransform h batch with
  | .ok () => return ()
  | .error e =>
    Act.log .debug "batch retransformation failed, retrying one class at a time"
      [("error", e.message)]
    batch.forM (retransformOne hosts h)

/-- Transforms classes again in batches. -/
def retransformInBatches (hosts : HostOps ε) (h : HostId) (classes : List LoadedClass) :
    Act ε Unit :=
  (batches batchSize classes).forM (retransformBatch hosts h)

end AdviceWeaver

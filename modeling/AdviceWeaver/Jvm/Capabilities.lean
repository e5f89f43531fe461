import AdviceWeaver.Text.Quoted

/-!
# Capabilities

What an agent asks a JVM to be allowed to do. The JVM takes them as a field of 128 bits in four
words; an agent that transforms classes needs three of them.
-/

namespace AdviceWeaver

/-- A right that an agent can ask for. -/
inductive Capability where
  /-- Class file load events before the JVM is initialized. -/
  | allClassHookEvents
  | retransformClasses
  | retransformAnyClass
deriving DecidableEq, Repr, Inhabited

namespace Capability

/-- The position of the right in the bit field. -/
def position : Capability → Nat
  | .allClassHookEvents => 26
  | .retransformClasses => 37
  | .retransformAnyClass => 38

def name : Capability → String
  | .allClassHookEvents => "all_class_hook_events"
  | .retransformClasses => "retransform_classes"
  | .retransformAnyClass => "retransform_any_class"

def all : List Capability := [.allClassHookEvents, .retransformClasses, .retransformAnyClass]

end Capability

/-- The rights that are asked for. -/
structure Capabilities where
  granted : Capability → Bool

namespace Capabilities

/-- No rights. -/
def empty : Capabilities := ⟨fun _ => false⟩

/-- Asks for a right or no longer asks for it. -/
def set (cs : Capabilities) (c : Capability) (value : Bool) : Capabilities :=
  ⟨fun d => if d = c then value else cs.granted d⟩

/-- The rights that are asked for, in the order of their positions. -/
def toList (cs : Capabilities) : List Capability :=
  Capability.all.filter cs.granted

/-- A word of 32 bits of the bit field. -/
def word (cs : Capabilities) (index : Nat) : Nat :=
  (cs.toList.filter fun c => c.position / 32 = index).foldl
    (fun sum c => sum + 1 <<< (c.position % 32)) 0

/-- The bit field word by word. -/
def debug (cs : Capabilities) : String :=
  Text.showRecord "jvmtiCapabilities"
    [("bits", Text.showList (fun index => toString (cs.word index)) (List.range 4))]

end Capabilities

end AdviceWeaver

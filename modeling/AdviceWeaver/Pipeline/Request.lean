import AdviceWeaver.Session.Basic

/-!
# Transform requests

A class on its way through a host: it is about to be defined, or it was defined and is transformed
again from its initial class file.
-/

namespace AdviceWeaver

/-- A class file that may be transformed. -/
structure TransformRequest where
  /-- The internal name, if the host knows it. -/
  className : Option String
  /-- The loader; none for the bootstrap loader. -/
  loader : Option LoaderId
  /-- Whether the class exists already. -/
  redefining : Bool
  bytes : Bytes
deriving DecidableEq, Repr, Inhabited

namespace TransformRequest

variable {ε : Type}

/-- What is known of the loader of the class. -/
def loaderDescription (ops : LoaderOps ε) (r : TransformRequest) : Act ε LoaderDescription :=
  match r.loader with
  | some l => ops.describe l
  | none => return .bootstrap

/-- A request with its fields. -/
def debug (r : TransformRequest) (loader : LoaderDescription) : String :=
  Text.showRecord "TransformRequest"
    [("class_name", Text.showOption Text.quote r.className), ("loader", loader.debug),
     ("redefining", toString r.redefining), ("len", toString r.bytes.length)]

end TransformRequest

end AdviceWeaver

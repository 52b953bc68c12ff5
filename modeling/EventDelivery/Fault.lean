import EventDelivery.Text.Basic

/-! What code raises that is not known here: that of a client, of a committer, or of an object that is asked for
its words. -/

namespace EventDelivery
set_option autoImplicit false

inductive FaultKind where
  | runtime
  | type
  | value
  | system
  | other (name : String)
deriving DecidableEq

structure Fault where
  kind : FaultKind
  message : Text
deriving DecidableEq

namespace Fault

/-- Whether a fault blames what was given, for its type or for its value. -/
def blamesValue (fault : Fault) : Bool :=
  match fault.kind with
  | .type | .value => true
  | _ => false

end Fault

end EventDelivery

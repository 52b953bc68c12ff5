import EventDelivery.Failure

/-! How destinations become names of streams. -/

namespace EventDelivery
set_option autoImplicit false

inductive StreamNaming where
  | identity
  | sanitized
deriving DecidableEq

namespace StreamNaming

def isAllowed (p : CodePoint) : Bool :=
  p.char?.any fun c => c.isAlphanum || c = '_' || c = '.' || c = '-'

/-- Sanitizing puts a hyphen in the place of every other character. -/
def apply : StreamNaming → Text → Text
  | identity, destination => destination
  | sanitized, destination => destination.map fun p => if isAllowed p then p else .char '-'

def name : StreamNaming → String
  | identity => "identity"
  | sanitized => "sanitized"

def ofName (mode : Text) : Except Failure StreamNaming :=
  if mode = Text.ofString "identity" then .ok identity
  else if mode = Text.ofString "sanitized" then .ok sanitized
  else .error (.refused (.streamNaming mode))

@[simp] theorem ofName_name (naming : StreamNaming) :
    ofName (Text.ofString naming.name) = .ok naming := by
  cases naming <;> simp [ofName, name]

end StreamNaming

end EventDelivery

import EventDelivery.Environment
import EventDelivery.Text.Blank
import EventDelivery.Validation.Field

/-! Settings: where the service is, how its streams are named, and how events are grouped. They come
from named arguments and from the environment; an argument wins over a variable. Names count without
regard to case. -/

namespace EventDelivery
set_option autoImplicit false

structure Settings where
  region : Text
  endpoint : Option Text
  profile : Option Text
  nullKey : Text
  streamNaming : Text
  batchSize : Int
deriving DecidableEq

namespace Settings

def setting {α : Type} (fault : SettingFault) : Except IssueCause α := .error (.setting fault)

def readRegion (payload : Payload) : Except IssueCause Text := do
  let region := (← Field.text payload).strip
  if region.isEmpty then setting .emptyRegion else return region

/-- Text without blanks around it; nothing if there is nothing but blanks. -/
def nonBlank (t : Option Text) : Option Text := (t.map Text.strip).filter (!·.isEmpty)

def readEndpoint (payload : Payload) : Except IssueCause (Option Text) := do
  match nonBlank (← Field.optionalText payload) with
  | none => return none
  | some address =>
    match Endpoint.fault? address with
    | some fault => setting (.endpoint fault)
    | none => return some address

def readProfile (payload : Payload) : Except IssueCause (Option Text) :=
  (Field.optionalText payload).map nonBlank

def nullKeyLimit : Nat := 256

def readNullKey (payload : Payload) : Except IssueCause Text := do
  let key ← Field.text payload
  if key.isEmpty then setting .emptyNullKey
  else if nullKeyLimit < key.length then setting .longNullKey
  else return key

/-- One of the two names of a naming. Text that is made of characters is compared with them; nothing
but text is looked at. -/
def readStreamNaming : Payload → Except IssueCause Text
  | .text t =>
    if t.chars?.isNone then .error .notUnicode
    else if t = Text.ofString "identity" ∨ t = Text.ofString "sanitized" then .ok t
    else .error .notMode
  | _ => .error .notMode

def readBatchSize (payload : Payload) : Except IssueCause Int := do
  let size ← Field.integer payload
  if size < 1 then setting .batchSize else return size

/-! A setting is known by the name of its variable, among the arguments too. -/

def regionName : String := "AWS_REGION"
def endpointName : String := "KINESIS_ENDPOINT"
def profileName : String := "KINESIS_CREDENTIALS_PROFILE"
def nullKeyName : String := "KINESIS_NULL_KEY"
def streamNamingName : String := "KINESIS_STREAM_NAME_MODE"
def batchSizeName : String := "CLI_BATCH_SIZE"

def names : List String :=
  [regionName, endpointName, profileName, nullKeyName, streamNamingName, batchSizeName]

/-- The argument under any spelling of a name; of several the first one counts. -/
def argument? (arguments : Field.Given) (name : String) : Option Payload :=
  (arguments.find? fun (n, _) => foldedName n = foldedName name).map (·.2)

def given? (environment : Environment) (arguments : Field.Given) (name : String) : Option Payload :=
  (argument? arguments name).or ((environment.folded? name).map fun value => .text (Text.ofString value))

def optional {α : Type} (environment : Environment) (arguments : Field.Given)
    (name : String) (default : α) (read : Payload → Except IssueCause α) : Except IssueCause α :=
  match given? environment arguments name with
  | some payload => read payload
  | none => .ok default

/-- The arguments that are no settings, each an issue of its own. -/
def unknown (arguments : Field.Given) : List Issue :=
  (arguments.filter fun (n, _) => names.all fun name => foldedName n ≠ foldedName name).map
    fun (n, _) => ⟨some n, .unknownName⟩

def defaultNullKey : Text := Text.ofString "default"

def load (environment : Environment) (arguments : Field.Given) : Except (List Issue) Settings :=
  let region :=
    match given? environment arguments regionName with
    | some payload => readRegion payload
    | none => .error .missing
  let endpoint := optional environment arguments endpointName none readEndpoint
  let profile := optional environment arguments profileName none readProfile
  let nullKey := optional environment arguments nullKeyName defaultNullKey readNullKey
  let naming := optional environment arguments streamNamingName (Text.ofString "identity") readStreamNaming
  let size := optional environment arguments batchSizeName 2048 readBatchSize
  match region, endpoint, profile, nullKey, naming, size, unknown arguments with
  | .ok region, .ok endpoint, .ok profile, .ok nullKey, .ok naming, .ok size, [] =>
    .ok ⟨region, endpoint, profile, nullKey, naming, size⟩
  | _, _, _, _, _, _, extra =>
    .error ([Field.issue? regionName region, Field.issue? endpointName endpoint,
      Field.issue? profileName profile, Field.issue? nullKeyName nullKey,
      Field.issue? streamNamingName naming, Field.issue? batchSizeName size].filterMap id ++ extra)

end Settings

end EventDelivery

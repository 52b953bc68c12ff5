import EventDelivery.Record

/-! What a response says of one record. An error code that counts as false is no error. -/

namespace EventDelivery
set_option autoImplicit false

structure Outcome where
  sequenceNumber : Option Text
  shard : Option Text
  errorCode : Option Text
  errorMessage : Option Text
deriving DecidableEq

namespace Outcome

/-- A record failed exactly when its outcome has an error code that is not empty. -/
def succeeded (outcome : Outcome) : Bool := outcome.errorCode.all (·.isEmpty)

def ofFields (fields : Field.Given) : Except (List Issue) Outcome :=
  let read name := Field.defaulted fields name none Field.optionalText
  match read "sequence_number", read "shard_id", read "error_code", read "error_message" with
  | .ok number, .ok shard, .ok code, .ok message => .ok ⟨number, shard, code, message⟩
  | number, shard, code, message =>
    .error ([Field.issue? "sequence_number" number, Field.issue? "shard_id" shard,
      Field.issue? "error_code" code, Field.issue? "error_message" message].filterMap id)

end Outcome

namespace Payload

/-- The value under a text key of a value with keys; null where the key is absent. -/
def field? (payload : Payload) (name : String) : Option Payload :=
  payload.entries?.map fun entries => (lookup entries name).getD null

def wordsIfTruthy (payload : Payload) : Except Failure Payload :=
  if payload.isFalsy then .ok null
  else
    match payload.display with
    | .ok t => .ok (text t)
    | .error fault => .error (.rendering (.raised fault))

end Payload

def Outcome.ofEntry (entry : Payload) : Except Failure Outcome := do
  let field name := match entry.field? name with
    | some payload => Except.ok payload
    | none => Except.error (Failure.misfit .noFields)
  let code ← field "ErrorCode"
  let message ← field "ErrorMessage"
  let number ← field "SequenceNumber"
  let shard ← field "ShardId"
  let code ← code.wordsIfTruthy
  let message ← message.wordsIfTruthy
  (Outcome.ofFields [("sequence_number", number), ("shard_id", shard), ("error_code", code),
    ("error_message", message)]).mapError .invalid

structure Result where
  record : Record
  outcome : Outcome

def Result.succeeded (result : Result) : Bool := result.outcome.succeeded

end EventDelivery

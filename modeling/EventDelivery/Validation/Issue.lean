import EventDelivery.Endpoint

/-! What a validation reports: an issue has a place, the cause, and for each cause a code and a
message. -/

namespace EventDelivery
set_option autoImplicit false

inductive SettingFault where
  | emptyRegion
  | emptyNullKey
  | longNullKey
  | batchSize
  | endpoint (fault : EndpointFault)
deriving DecidableEq

def SettingFault.message : SettingFault → Text
  | emptyRegion => "AWS_REGION must not be empty"
  | emptyNullKey => "KINESIS_NULL_KEY must not be empty"
  | longNullKey => "KINESIS_NULL_KEY must be at most 256 characters"
  | batchSize => "CLI_BATCH_SIZE must be >= 1"
  | endpoint fault => fault.message

inductive IssueCause where
  | missing
  | notText
  | notUnicode
  | emptyText
  | notBytes
  | notInteger
  | notIntegerText
  | integerTooLong
  | fractional
  | notFinite
  | negative
  | notMode
  | unknownName
  | notObject
  /-- the complaint names a place in the text and quotes it -/
  | notJson (text : String)
  | setting (fault : SettingFault)
deriving DecidableEq

namespace IssueCause

def code : IssueCause → String
  | missing => "missing"
  | notText => "string_type"
  | notUnicode => "string_unicode"
  | emptyText => "string_too_short"
  | notBytes => "bytes_type"
  | notInteger => "int_type"
  | notIntegerText => "int_parsing"
  | integerTooLong => "int_parsing_size"
  | fractional => "int_from_float"
  | notFinite => "finite_number"
  | negative => "greater_than_equal"
  | notMode => "literal_error"
  | unknownName => "extra_forbidden"
  | notObject => "model_type"
  | notJson _ => "json_invalid"
  | setting _ => "value_error"

/-- What stands for the halves of surrogate pairs in a message: a replacement character for each of
the three bytes that a half would take. -/
def legible (t : Text) : Text :=
  t.flatMap fun p => if p.char?.isSome then [p] else List.replicate 3 (.char '\uFFFD')

/-- The message; for text that is no JSON it is told by the text alone. -/
def message? : IssueCause → Option Text
  | missing => some "Field required"
  | notText => some "Input should be a valid string"
  | notUnicode => some "Input should be a valid string, unable to parse raw data as a unicode string"
  | emptyText => some "String should have at least 1 character"
  | notBytes => some "Input should be a valid bytes"
  | notInteger => some "Input should be a valid integer"
  | notIntegerText => some "Input should be a valid integer, unable to parse string as an integer"
  | integerTooLong => some "Unable to parse input string as an integer, exceeded maximum size"
  | fractional => some "Input should be a valid integer, got a number with a fractional part"
  | notFinite => some "Input should be a finite number"
  | negative => some "Input should be greater than or equal to 0"
  | notMode => some "Input should be 'identity' or 'sanitized'"
  | unknownName => some "Extra inputs are not permitted"
  | notObject => some "Input should be an object"
  | notJson _ => none
  | setting fault => some (Text.ofString "Value error, " ++ legible fault.message)

end IssueCause

/-- An issue with the field at a place; the whole document is at no place. -/
structure Issue where
  place : Option String
  cause : IssueCause
deriving DecidableEq

end EventDelivery

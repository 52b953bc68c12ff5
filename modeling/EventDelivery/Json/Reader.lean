import EventDelivery.Json.Token

/-! Reading a document from its tokens: a machine whose stack holds the open arrays and objects. At
most `depthLimit` of them may be open where a value or a name stands; one more may be opened and
closed at once. -/

namespace EventDelivery.Json
set_option autoImplicit false

def depthLimit : Nat := 200

/-- An open array or object with what it holds so far, newest first. -/
inductive Frame where
  | items (done : List Json)
  | member (done : List (String × Json)) (name : String)

/-- What may come next, inside the open frames. -/
inductive Reading where
  /-- a value -/
  | wantValue (stack : List Frame)
  /-- the first item of an array, or its end -/
  | firstItem (stack : List Frame)
  /-- the first name of an object, or its end -/
  | firstName (stack : List Frame)
  /-- a name -/
  | wantName (done : List (String × Json)) (stack : List Frame)
  /-- the colon after a name -/
  | wantColon (done : List (String × Json)) (name : String) (stack : List Frame)
  /-- what may follow a complete value -/
  | after (value : Json) (stack : List Frame)

namespace Reading

def beginValue? (stack : List Frame) : Token → Option Reading
  | .scalar v => some (after v stack)
  | .string s => some (after (.string s) stack)
  | .openArray => some (firstItem stack)
  | .openObject => some (firstName stack)
  | _ => none

def step? : Reading → Token → Option Reading
  | wantValue stack, token => beginValue? stack token
  | firstItem stack, .closeArray => some (after (.array []) stack)
  | firstItem stack, token =>
    if stack.length < depthLimit then beginValue? (.items [] :: stack) token else none
  | firstName stack, .closeObject => some (after (.object []) stack)
  | firstName stack, .string n => if stack.length < depthLimit then some (wantColon [] n stack) else none
  | wantName done stack, .string n => some (wantColon done n stack)
  | wantColon done n stack, .colon => some (wantValue (.member done n :: stack))
  | after v (.items done :: stack), .comma => some (wantValue (.items (v :: done) :: stack))
  | after v (.items done :: stack), .closeArray => some (after (.array (v :: done).reverse) stack)
  | after v (.member done n :: stack), .comma => some (wantName ((n, v) :: done) stack)
  | after v (.member done n :: stack), .closeObject =>
    some (after (.object (membersOf ((n, v) :: done).reverse)) stack)
  | _, _ => none

/-- The document that the tokens from here on complete. -/
def finish? : Reading → List Token → Option Json
  | after v [], [] => some v
  | _, [] => none
  | reading, token :: tokens =>
    match reading.step? token with
    | none => none
    | some next => finish? next tokens

end Reading

def read? [Release] (text : List Char) : Option Json := (tokens? text).bind (Reading.wantValue []).finish?

end EventDelivery.Json

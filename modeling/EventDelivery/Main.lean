import EventDelivery.Service

/-! The command line: events come in lines on standard input, settings from the environment. The
stream service is played by standard output, which takes every request as one line and confirms
all its entries; notices go to standard error. -/

namespace EventDelivery.CommandLine
set_option autoImplicit false

/-- The variables that the service looks for, in capital and in small letters. -/
def lookedFor : List String :=
  let names := "LOG_LEVEL" :: Settings.names
  names ++ names.map String.toLower

def environment : IO Environment := do
  let found ← lookedFor.filterMapM fun name => do
    return (← IO.getEnv name).map fun value => (name, value)
  return Environment.ofList found

def requestLine (request : Request) : String :=
  let entries := request.entries.map fun entry =>
    Payload.sequence .list [.text (Text.ofString entry.partitionKey),
      .text (Text.ofList (entry.data.toList.flatMap fun b => hexDigits 2 b.toNat))]
  let line := Payload.sequence .list [.text request.stream, .sequence .list entries]
  (line.compact.toOption.map String.ofList).getD ""

/-- A response that confirms every entry of a request. -/
def confirmation (request : Request) : Payload :=
  .mapping false [(.text (Text.ofString "Records"),
    .sequence .list (request.entries.map fun _ => .mapping false []))]

def noticeLine (notice : Notice) : String :=
  let fields := notice.fields.map fun (name, value) => (Payload.text (Text.ofString name), value)
  notice.message ++ " " ++ ((Payload.mapping false fields).compact.toOption.map String.ofList).getD ""

def milliseconds (duration : Seconds) : Nat :=
  match duration with
  | .whole n => (n * 1000).toNat
  | .double x =>
    match x.toDecimal? with
    | some ⟨false, c, e⟩ => if 0 ≤ e then c * Nat.pow 10 e.toNat * 1000 else c * 1000 / Nat.pow 10 (-e).toNat
    | _ => 0

def answer : (c : Call) → IO c.Answer
  | .connect _ => return .ok ⟨"standard output", false⟩
  | .send request => do
    IO.println (requestLine request)
    return .ok (confirmation request)
  | .submit _ records => return .ok (records.map fun record => ⟨record, none, none, none, none⟩)
  | .sleep duration => do
    IO.sleep (milliseconds duration).toUInt32
    return .ok ()
  | .mark _ => return .ok ()
  | .finish => return .ok ()
  | .close => return .ok ()
  | .note notice => IO.eprintln (noticeLine notice)

def perform {α : Type} : Interaction α → IO α
  | .done a => return a
  | .call c next => do perform (next (← answer c))

end EventDelivery.CommandLine

open EventDelivery in
def main : IO UInt32 := do
  let environment ← CommandLine.environment
  let text ← (← IO.getStdin).readToEnd
  match ← CommandLine.perform (Service.run environment none .standard (linesOf text)).run with
  | .ok code => return code.toUInt32
  | .error failure => do
    IO.eprintln ((failure.message.toString?).getD "")
    return 1

import EventDelivery.Interaction

/-! Publishing a window in a bounded number of attempts. An attempt that fails as a whole is repeated
with the same records, one that fails for some records is repeated with those; both use up the
same budget, and a pause of fixed length lies between two attempts. -/

namespace EventDelivery
set_option autoImplicit false

structure RetryPolicy where
  attempts : Nat
  attempts_pos : 0 < attempts
  interval : Seconds

namespace RetryPolicy

def make (attempts : Int) (interval : Seconds) : Except Failure RetryPolicy :=
  if h : 0 < attempts.toNat then
    if interval.isNegative then .error (.refused .interval)
    else .ok ⟨attempts.toNat, h, interval⟩
  else .error (.refused .attempts)

def second : Seconds := .double (Binary64.ofDecimal ⟨false, 1, 0⟩)

def standard : RetryPolicy := ⟨5, by decide, second⟩

end RetryPolicy

/-- What takes the records of a window for a destination. -/
abbrev Submission := Text → List Record → Action (List Result)

namespace Retry

def failed (results : List Result) : List Result := results.filter (!·.succeeded)

def codes (results : List Result) : List Text :=
  Text.sortedDistinct (results.filterMap (·.outcome.errorCode))

def pause (interval : Seconds) : Action Unit :=
  Action.ofCall (.sleep interval) fun answer => answer.mapError fun _ => .cancelled

def backoff (interval : Seconds) (left : Nat) : Action Unit :=
  if left = 0 then return else pause interval

/-- The answer to an attempt: the results of its records, or nothing known of them, with the text and
the code of the failure. Any other failure ends the publishing. -/
def attempt (submit : Submission) (destination : Text) (pending : List Record) :
    Action (List Result ⊕ Text × Option Text) :=
  ExceptT.mk do
    match ← (submit destination pending).run with
    | .ok results => return .ok (.inl results)
    | .error (.transport message code) => return .ok (.inr (message, code))
    | .error failure => return .error failure

/-- Publishes records of which some are pending, with so many attempts left after those made. -/
def publishFrom (submit : Submission) (interval : Seconds) (destination : Text) :
    (left made : Nat) → (pending : List Record) → Action Nat
  | 0, made, pending => do
    Action.note (.exhausted destination pending.length made)
    throw (.delivery ⟨destination, made, pending.map fun record => (record.position : Int)⟩)
  | left + 1, made, pending => do
    match ← attempt submit destination pending with
    | .inr (message, code) =>
      Action.note (.requestFailed destination pending.length (made + 1) code (.transport message code))
      backoff interval left
      publishFrom submit interval destination left (made + 1) pending
    | .inl results =>
      let failed := failed results
      if failed.isEmpty then return made + 1
      else
        Action.note (.partialFailure destination failed.length (pending.length - failed.length)
          (made + 1) (codes failed))
        backoff interval left
        publishFrom submit interval destination left (made + 1) (failed.map Result.record)

def publish (submit : Submission) (policy : RetryPolicy) (destination : Text) (records : List Record) :
    Action Nat :=
  if records.isEmpty then return 0
  else publishFrom submit policy.interval destination policy.attempts 0 records

end Retry

end EventDelivery

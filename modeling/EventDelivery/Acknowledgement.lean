import EventDelivery.Interaction

/-! Acknowledging the events of one batch to the committer that waits for them. Each accepted mark
is counted, a mark that is not accepted ends the window, and after the finish nothing more may
come. -/

namespace EventDelivery
set_option autoImplicit false

structure Tracker where
  processed : Nat
  finished : Bool
deriving DecidableEq

namespace Tracker

def fresh : Tracker := ⟨0, false⟩

def markAll (tracker : Tracker) : List Event → Interaction (Except Failure Unit × Tracker)
  | [] => return (.ok (), tracker)
  | event :: events => do
    match ← Interaction.perform (.mark event) with
    | .ok () => markAll { tracker with processed := tracker.processed + 1 } events
    | .error fault => return (.error (.outside fault), tracker)

def acknowledge (tracker : Tracker) (events : List Event) : Interaction (Except Failure Unit × Tracker) :=
  if tracker.finished then return (.error (.late .acknowledgedAfterFinish), tracker)
  else tracker.markAll events

/-- Tells that the batch is finished, which is accepted once. -/
def finish (tracker : Tracker) : Interaction (Except Failure Unit × Tracker) :=
  if tracker.finished then return (.error (.late .finishedTwice), tracker)
  else do
    match ← Interaction.perform .finish with
    | .ok () => return (.ok (), { tracker with finished := true })
    | .error fault => return (.error (.outside fault), tracker)

end Tracker

end EventDelivery

import EventDelivery.Sink
import EventDelivery.Proofs.Requests
import EventDelivery.Proofs.WindowRecords

/-! The course of delivering a batch: window after window is converted, published and marked, until one of
these steps fails or all windows are through. -/

namespace EventDelivery
open Interaction (Path)
set_option autoImplicit false

namespace Tracker

def advance (tracker : Tracker) (n : Nat) : Tracker := { tracker with processed := tracker.processed + n }

theorem advance_advance (tracker : Tracker) (m n : Nat) :
    (tracker.advance m).advance n = tracker.advance (m + n) := by
  simp [advance, Nat.add_assoc]

theorem advance_succ (tracker : Tracker) (n : Nat) :
    ({ tracker with processed := tracker.processed + 1 } : Tracker).advance n = tracker.advance (n + 1) := by
  simp only [advance, Nat.add_assoc, Nat.add_comm 1]

theorem path_markAll_iff {tracker : Tracker} {events : List Event} {t : List Exchange}
    {r : Except Failure Unit × Tracker} :
    Path (tracker.markAll events) t r ↔
      (t = events.map Exchange.accepted ∧ r = (.ok (), tracker.advance events.length)) ∨
      ∃ xs event ys fault, events = xs ++ event :: ys ∧
        t = xs.map Exchange.accepted ++ [⟨.mark event, .error fault⟩] ∧
        r = (.error (.outside fault), tracker.advance xs.length) := by
  induction events generalizing tracker t r with
  | nil => simp [markAll, advance]
  | cons event events ih =>
    constructor
    · intro h
      obtain ⟨answer, rest, rfl, hrest⟩ := Interaction.path_call_iff.mp h
      cases answer with
      | ok ended =>
        rcases ih.mp hrest with ⟨rfl, rfl⟩ | ⟨xs, refused, ys, fault, rfl, rfl, rfl⟩
        · exact .inl ⟨rfl, by rw [advance_succ]; rfl⟩
        · exact .inr ⟨event :: xs, refused, ys, fault, rfl, rfl, by rw [advance_succ]; rfl⟩
      | error fault =>
        obtain ⟨rfl, rfl⟩ := Interaction.path_done_iff.mp hrest
        exact .inr ⟨[], event, events, fault, rfl, rfl, rfl⟩
    · rintro (⟨rfl, rfl⟩ | ⟨xs, refused, ys, fault, hsplit, rfl, rfl⟩)
      · refine .call (ih.mpr (.inl ⟨rfl, ?_⟩))
        rw [advance_succ]
        rfl
      · cases xs with
        | nil =>
          obtain ⟨rfl, rfl⟩ := List.cons.inj hsplit
          exact .call (.done _)
        | cons x xs =>
          obtain ⟨rfl, rfl⟩ := List.cons.inj hsplit
          refine .call (ih.mpr (.inr ⟨xs, refused, ys, fault, rfl, rfl, ?_⟩))
          rw [advance_succ]
          rfl

end Tracker

namespace Sink

/-- A step that ends the delivery of a batch in one of its windows. -/
inductive Halt where
  | conversion (failure : Failure)
  | publication (failure : Failure)
  | acknowledgement (fault : Fault)

namespace Halt

def failure : Halt → Failure
  | conversion failure | publication failure => failure
  | acknowledgement fault => .outside fault

/-- Whether the committer had no part in it. -/
def isOfWindow : Halt → Bool
  | conversion _ | publication _ => true
  | acknowledgement _ => false

end Halt

def publishWindow (sink : Sink) (destination : Text) (records : List Record) : Action Nat :=
  Retry.publish sink.submit RetryPolicy.standard destination records

/-- What happens while events are delivered, how many windows are delivered in full, and what ends it in
the window after these. -/
inductive Course (sink : Sink) (destination : Text) :
    List Event → Nat → Option Halt → List Exchange → Prop where
  | complete : Course sink destination [] 0 none []
  | unconverted {events : List Event} {failure : Failure} (nonempty : events ≠ [])
      (converted : toRecords sink.nullKey (events.take windowSize) = .error failure) :
      Course sink destination events 0 (some (.conversion failure)) []
  | unpublished {events : List Event} {records : List Record} {t : List Exchange} {failure : Failure}
      (nonempty : events ≠ []) (converted : toRecords sink.nullKey (events.take windowSize) = .ok records)
      (published : Path (sink.publishWindow destination records).run t (.error failure)) :
      Course sink destination events 0 (some (.publication failure)) t
  | refused {events xs ys : List Event} {event : Event} {records : List Record} {t : List Exchange}
      {k : Nat} {fault : Fault} (nonempty : events ≠ [])
      (converted : toRecords sink.nullKey (events.take windowSize) = .ok records)
      (published : Path (sink.publishWindow destination records).run t (.ok k))
      (split : events.take windowSize = xs ++ event :: ys) :
      Course sink destination events 0 (some (.acknowledgement fault))
        (t ++ (xs.map Exchange.accepted ++ [⟨.mark event, .error fault⟩]))
  | delivered {events : List Event} {records : List Record} {t u : List Exchange} {k n : Nat}
      {halt : Option Halt} (nonempty : events ≠ [])
      (converted : toRecords sink.nullKey (events.take windowSize) = .ok records)
      (published : Path (sink.publishWindow destination records).run t (.ok k))
      (later : Course sink destination (events.drop windowSize) n halt u) :
      Course sink destination events (n + 1) halt
        (t ++ ((events.take windowSize).map Exchange.accepted ++ u))

section Paths
variable {sink : Sink} {destination : Text} {tracker : Tracker} {t : List Exchange}

theorem path_acknowledge_iff {window : List Event} {r : Except Failure Tracker}
    (unfinished : tracker.finished = false) :
    Path (ExceptT.mk do
        let (acknowledged, tracker) ← tracker.acknowledge window
        return acknowledged.map fun _ => tracker : Action Tracker).run t r ↔
      (t = window.map Exchange.accepted ∧ r = .ok (tracker.advance window.length)) ∨
      ∃ xs event ys fault, window = xs ++ event :: ys ∧
        t = xs.map Exchange.accepted ++ [⟨.mark event, .error fault⟩] ∧ r = .error (.outside fault) := by
  have hmark : tracker.acknowledge window = tracker.markAll window := by
    simp [Tracker.acknowledge, unfinished]
  rw [ExceptT.run_mk, Interaction.path_bind_iff, hmark]
  constructor
  · rintro ⟨told, t₁, t₂, hmarks, hdone, rfl⟩
    obtain ⟨rfl, rfl⟩ := Interaction.path_done_iff.mp hdone
    rw [List.append_nil]
    rcases Tracker.path_markAll_iff.mp hmarks with ⟨rfl, rfl⟩ | ⟨xs, event, ys, fault, hsplit, rfl, rfl⟩
    · exact .inl ⟨rfl, rfl⟩
    · exact .inr ⟨xs, event, ys, fault, hsplit, rfl, rfl⟩
  · rintro (⟨rfl, rfl⟩ | ⟨xs, event, ys, fault, hsplit, rfl, rfl⟩)
    · exact ⟨_, _, [], Tracker.path_markAll_iff.mpr (.inl ⟨rfl, rfl⟩), .done _,
        (List.append_nil _).symm⟩
    · exact ⟨_, _, [], Tracker.path_markAll_iff.mpr (.inr ⟨xs, event, ys, fault, hsplit, rfl, rfl⟩),
        .done _, (List.append_nil _).symm⟩

theorem path_deliverWindows_cons_iff {window : List Event} {rest : List (List Event)}
    {r : Except Failure Tracker} (unfinished : tracker.finished = false) :
    Path (sink.deliverWindows destination tracker (window :: rest)).run t r ↔
      (∃ failure, toRecords sink.nullKey window = .error failure ∧ t = [] ∧ r = .error failure) ∨
      ∃ records, toRecords sink.nullKey window = .ok records ∧
        ((∃ failure, Path (sink.publishWindow destination records).run t (.error failure) ∧
            r = .error failure) ∨
          ∃ k t₁ t₂, Path (sink.publishWindow destination records).run t₁ (.ok k) ∧ t = t₁ ++ t₂ ∧
            ((∃ xs event ys fault, window = xs ++ event :: ys ∧
                t₂ = xs.map Exchange.accepted ++ [⟨.mark event, .error fault⟩] ∧
                r = .error (.outside fault)) ∨
              ∃ u, t₂ = window.map Exchange.accepted ++ u ∧
                Path (sink.deliverWindows destination (tracker.advance window.length) rest).run u r)) := by
  rw [deliverWindows, Action.path_bind_iff]
  simp only [Action.path_bind_iff, Action.path_ofExcept_iff, path_acknowledge_iff unfinished]
  constructor
  · rintro (⟨failure, ⟨rfl, hconverted⟩, rfl⟩ | ⟨records, _, t', ⟨rfl, hconverted⟩, hrest, rfl⟩)
    · exact .inl ⟨failure, hconverted.symm, rfl, rfl⟩
    refine .inr ⟨records, hconverted.symm, ?_⟩
    rcases hrest with ⟨failure, hpublished, rfl⟩ | ⟨k, t₁, t₂, hpublished, hrest, rfl⟩
    · exact .inl ⟨failure, hpublished, rfl⟩
    refine .inr ⟨k, t₁, t₂, hpublished, rfl, ?_⟩
    rcases hrest with ⟨failure, ⟨-, hbad⟩ | ⟨xs, event, ys, fault, hsplit, rfl, hfault⟩, rfl⟩ |
      ⟨advanced, t₃, u, ⟨rfl, hadvanced⟩ | ⟨_, _, _, _, _, _, hbad⟩, hlater, rfl⟩
    · cases hbad
    · exact .inl ⟨xs, event, ys, fault, hsplit, rfl, hfault⟩
    · obtain rfl := Except.ok.inj hadvanced
      exact .inr ⟨u, rfl, hlater⟩
    · cases hbad
  · rintro (⟨failure, hconverted, rfl, rfl⟩ | ⟨records, hconverted, hrest⟩)
    · exact .inl ⟨failure, ⟨rfl, hconverted.symm⟩, rfl⟩
    refine .inr ⟨records, [], t, ⟨rfl, hconverted.symm⟩, ?_, rfl⟩
    rcases hrest with ⟨failure, hpublished, rfl⟩ | ⟨k, t₁, t₂, hpublished, rfl, hrest⟩
    · exact .inl ⟨failure, hpublished, rfl⟩
    refine .inr ⟨k, t₁, t₂, hpublished, ?_, rfl⟩
    rcases hrest with ⟨xs, event, ys, fault, hsplit, rfl, rfl⟩ | ⟨u, rfl, hlater⟩
    · exact .inl ⟨_, .inr ⟨xs, event, ys, fault, hsplit, rfl, rfl⟩, rfl⟩
    · exact .inr ⟨_, _, u, .inl ⟨rfl, rfl⟩, hlater, rfl⟩

def ending (tracker : Tracker) : Option Halt → Except Failure Tracker
  | none => .ok tracker
  | some halt => .error halt.failure

theorem course_of_path {events : List Event} {r : Except Failure Tracker}
    (unfinished : tracker.finished = false)
    (h : Path (sink.deliverWindows destination tracker (windows windowSize windowSize_pos events)).run t r) :
    ∃ n halt, Course sink destination events n halt t ∧
      r = ending (tracker.advance events.length) halt := by
  induction events using windows.induct windowSize windowSize_pos generalizing tracker t with
  | case1 =>
    rw [windows_nil] at h
    obtain ⟨rfl, rfl⟩ := Action.path_pure_iff.mp h
    exact ⟨0, none, .complete, rfl⟩
  | case2 event events ih =>
    have hne : event :: events ≠ [] := List.cons_ne_nil event events
    rw [windows_of_ne_nil _ _ hne, path_deliverWindows_cons_iff unfinished] at h
    rcases h with ⟨failure, hconverted, rfl, rfl⟩ | ⟨records, hconverted, h⟩
    · exact ⟨0, _, .unconverted hne hconverted, rfl⟩
    rcases h with ⟨failure, hpublished, rfl⟩ | ⟨k, t₁, t₂, hpublished, rfl, h⟩
    · exact ⟨0, _, .unpublished hne hconverted hpublished, rfl⟩
    rcases h with ⟨xs, event, ys, fault, hsplit, rfl, rfl⟩ | ⟨u, rfl, hlater⟩
    · exact ⟨0, _, .refused hne hconverted hpublished hsplit, rfl⟩
    have hstill : (tracker.advance ((event :: events).take windowSize).length).finished = false := unfinished
    obtain ⟨n, halt, hcourse, hr⟩ := ih hstill hlater
    refine ⟨n + 1, halt, .delivered hne hconverted hpublished hcourse, ?_⟩
    rw [hr, Tracker.advance_advance, ← List.length_append, List.take_append_drop]

theorem path_of_course {events : List Event} {n : Nat} {halt : Option Halt}
    (unfinished : tracker.finished = false) (h : Course sink destination events n halt t) :
    Path (sink.deliverWindows destination tracker (windows windowSize windowSize_pos events)).run t
      (ending (tracker.advance events.length) halt) := by
  induction h generalizing tracker with
  | complete =>
    rw [windows_nil]
    exact .done _
  | unconverted nonempty converted =>
    rw [windows_of_ne_nil _ _ nonempty, path_deliverWindows_cons_iff unfinished]
    exact .inl ⟨_, converted, rfl, rfl⟩
  | unpublished nonempty converted published =>
    rw [windows_of_ne_nil _ _ nonempty, path_deliverWindows_cons_iff unfinished]
    exact .inr ⟨_, converted, .inl ⟨_, published, rfl⟩⟩
  | refused nonempty converted published split =>
    rw [windows_of_ne_nil _ _ nonempty, path_deliverWindows_cons_iff unfinished]
    exact .inr ⟨_, converted, .inr ⟨_, _, _, published, rfl, .inl ⟨_, _, _, _, split, rfl, rfl⟩⟩⟩
  | @delivered events records t u k n halt nonempty converted published later ih =>
    have hstill : (tracker.advance (events.take windowSize).length).finished = false := unfinished
    have hlater := ih hstill
    rw [Tracker.advance_advance, ← List.length_append, List.take_append_drop] at hlater
    rw [windows_of_ne_nil _ _ nonempty, path_deliverWindows_cons_iff unfinished]
    exact .inr ⟨_, converted, .inr ⟨_, _, _, published, rfl, .inr ⟨_, rfl, hlater⟩⟩⟩

end Paths

theorem course_of_publishWindow {sink : Sink} {destination : Text} {records : List Record}
    {t : List Exchange} {r : Except Failure Nat} (hne : records ≠ [])
    (h : Path (sink.publishWindow destination records).run t r) :
    Retry.Course (Writer.putRecords sink.naming) RetryPolicy.second destination 5 0 records t r :=
  Retry.course_of_publish hne h

end Sink

def destinationOf : List Event → Text
  | [] => []
  | first :: _ => first.destination

namespace Sink

/-- A batch that is meant for several destinations is told of before anything else. -/
def opening (events : List Event) : List Exchange :=
  if events.any fun event => event.destination ≠ destinationOf events then
    [⟨.note (.mixedDestinations (destinationOf events) events.length), ()⟩]
  else []

/-- All that can happen when an open sink is handed a batch. -/
inductive Delivery (sink : Sink) (events : List Event) : List Exchange → Except Failure Unit → Prop where
  | halted {n : Nat} {halt : Halt} {t : List Exchange}
      (course : Course sink (destinationOf events) events n (some halt) t) :
      Delivery sink events (opening events ++ t) (.error halt.failure)
  | finished {n : Nat} {t : List Exchange} {answer : Except Fault Unit}
      (course : Course sink (destinationOf events) events n none t) :
      Delivery sink events (opening events ++ (t ++ [⟨.finish, answer⟩])) (answer.mapError .outside)

section Batches
variable {sink : Sink} {events : List Event} {t : List Exchange} {r : Except Failure Unit}

theorem path_finishBatch_iff {tracker : Tracker} (unfinished : tracker.finished = false) :
    Path (finishBatch tracker).run t r ↔
      ∃ answer : Except Fault Unit, t = [⟨.finish, answer⟩] ∧ r = answer.mapError .outside := by
  have hfinish : (finishBatch tracker).run
      = .call .finish fun answer : Except Fault Unit => .done (answer.mapError .outside) := by
    simp only [finishBatch, Tracker.finish, unfinished, Bool.false_eq_true, if_false, ExceptT.run_mk]
    refine congrArg (Interaction.call .finish) (funext fun answer => ?_)
    cases answer <;> rfl
  rw [hfinish]
  constructor
  · intro h
    obtain ⟨answer, rest, rfl, hrest⟩ := Interaction.path_call_iff.mp h
    obtain ⟨rfl, rfl⟩ := Interaction.path_done_iff.mp hrest
    exact ⟨answer, rfl, rfl⟩
  · rintro ⟨answer, rfl, rfl⟩
    exact .call (.done _)

theorem handleBatch_of_isOpen (opened : sink.isOpen = true) :
    sink.handleBatch events = (do
      if events.any fun event => event.destination ≠ destinationOf events then
        Action.note (.mixedDestinations (destinationOf events) events.length)
      let tracker ← sink.deliverWindows (destinationOf events) .fresh
        (windows windowSize windowSize_pos events)
      finishBatch tracker) := by
  simp only [handleBatch, opened, Bool.not_true, Bool.false_eq_true, if_false]
  cases events with
  | nil =>
    rw [windows_nil]
    rfl
  | cons first rest => rfl

theorem path_opening_iff {α : Type} {next : Action α} {r : Except Failure α} :
    Path (do
      if events.any fun event => event.destination ≠ destinationOf events then
        Action.note (.mixedDestinations (destinationOf events) events.length)
      next : Action α).run t r ↔ ∃ u, t = opening events ++ u ∧ Path next.run u r := by
  unfold opening
  split
  · exact Action.path_note_bind_iff
  · simp

/-- A batch is delivered under its opening, and finished when nothing ended the delivery. -/
theorem path_handleBatch_iff (opened : sink.isOpen = true) :
    Path (sink.handleBatch events).run t r ↔ Delivery sink events t r := by
  rw [handleBatch_of_isOpen opened, path_opening_iff]
  constructor
  · rintro ⟨u, rfl, hu⟩
    rcases Action.path_bind_iff.mp hu with ⟨failure, hdelivered, rfl⟩ |
      ⟨tracker, t₁, t₂, hdelivered, hfinished, rfl⟩
    · obtain ⟨n, halt, hcourse, hr⟩ := course_of_path rfl hdelivered
      cases halt with
      | none => cases hr
      | some halt =>
        obtain rfl := Except.error.inj hr
        exact .halted hcourse
    · obtain ⟨n, halt, hcourse, hr⟩ := course_of_path rfl hdelivered
      cases halt with
      | none =>
        obtain rfl := Except.ok.inj hr
        obtain ⟨answer, rfl, rfl⟩ := (path_finishBatch_iff rfl).mp hfinished
        exact .finished hcourse
      | some halt => cases hr
  · rintro (@⟨n, halt, u, hcourse⟩ | @⟨n, u, answer, hcourse⟩)
    · exact ⟨u, rfl, Action.path_bind_iff.mpr (.inl ⟨_, path_of_course rfl hcourse, rfl⟩)⟩
    · exact ⟨_, rfl, Action.path_bind_iff.mpr (.inr ⟨_, _, _, path_of_course rfl hcourse,
        (path_finishBatch_iff rfl).mpr ⟨answer, rfl, rfl⟩, rfl⟩)⟩

theorem path_handleBatch_of_closed (closed : sink.isOpen = false)
    (h : Path (sink.handleBatch events).run t r) : t = [] := by
  simp only [handleBatch, closed] at h
  rcases Action.path_bind_iff.mp h with ⟨_, hthrow, -⟩ | ⟨_, _, _, hthrow, -, -⟩
  · exact (Action.path_throw_iff.mp hthrow).1
  · cases (Action.path_throw_iff.mp hthrow).2

end Batches

def plain : Sink := ⟨⟨"client", false⟩, Text.ofString "default", by decide, id, true⟩

def keyedEvents : List Event :=
  [⟨.text (Text.ofString "a"), .null, []⟩, ⟨.text (Text.ofString "b"), .null, []⟩]

def keyedRecords : List Record := [⟨"a", by decide, .empty, 0⟩, ⟨"b", by decide, .empty, 1⟩]

theorem windows_keyedEvents : windows windowSize windowSize_pos keyedEvents = [keyedEvents] :=
  windows_of_length_le (List.cons_ne_nil _ _) (by decide)

end Sink

end EventDelivery

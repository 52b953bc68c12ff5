import EventDelivery.Proofs.Completion

/-! Redelivery. A batch that failed is handed over again from its first event that was not marked, until it
returns. Over all rounds each event is marked once, in the order of the batch, and the finish is accepted
once, in the last round. -/

namespace EventDelivery
open Interaction (Path)
set_option autoImplicit false

def Exchange.isFinished : Exchange → Bool
  | ⟨.finish, .ok ()⟩ => true
  | _ => false

def finishes (h : List Exchange) : Nat := h.countP Exchange.isFinished

section Finishes
variable {h k : List Exchange}

theorem finishes_append : finishes (h ++ k) = finishes h + finishes k := List.countP_append

theorem finishes_eq_zero (hnone : ∀ x ∈ h, x.isFinish = false) : finishes h = 0 := by
  apply List.countP_eq_zero.mpr
  intro x hx hfinished
  have hfinish := hnone x hx
  obtain ⟨call, answer⟩ := x
  cases call with
  | finish => cases hfinish
  | _ => cases hfinished

end Finishes

namespace Sink

/-- The histories of the rounds in which a batch is delivered: each one that fails is followed by a round for
the events that it left unmarked, whatever the outside has become meanwhile, and the last one returns. -/
inductive Redelivery (sink : Sink) : List Event → List (List Exchange) → Prop where
  | returned {σ : Type} (world : World σ) (s : σ) {events : List Event}
      (ok : (Interaction.run world (sink.handleBatch events).run s).1 = .ok ()) :
      Redelivery sink events [Interaction.history world (sink.handleBatch events).run s]
  | failed {σ : Type} (world : World σ) (s : σ) {events : List Event} {failure : Failure}
      {histories : List (List Exchange)}
      (error : (Interaction.run world (sink.handleBatch events).run s).1 = .error failure)
      (later : Redelivery sink
        (events.drop (marks (Interaction.history world (sink.handleBatch events).run s)).length) histories) :
      Redelivery sink events (Interaction.history world (sink.handleBatch events).run s :: histories)

section Rounds
variable {sink : Sink} {events : List Event} {h : List Exchange} {r : Except Failure Unit}

theorem finishes_of_course {n : Nat} {halt : Option Halt} {t : List Exchange}
    (course : Course sink (destinationOf events) events n halt t) : finishes (opening events ++ t) = 0 := by
  apply finishes_eq_zero
  intro x hx
  rcases List.mem_append.mp hx with hx | hx
  · exact Exchange.isFinish_of_isPublishing (isPublishing_of_mem_opening hx)
  · exact isFinish_of_course course hx

theorem Delivery.marks_prefix (hdelivery : Delivery sink events h r) : marks h <+: events := by
  cases hdelivery with
  | halted course =>
    rw [marks_opening_append]
    exact (marks_of_course course).1
  | @finished n t answer course =>
    have hfinish : marks [⟨.finish, answer⟩] = [] := rfl
    rw [marks_opening_append, marks_append, hfinish, List.append_nil]
    exact (marks_of_course course).1

theorem Delivery.of_returned (hdelivery : Delivery sink events h r) (returned : r = .ok ()) :
    marks h = events ∧ finishes h = 1 := by
  cases hdelivery with
  | halted => cases returned
  | @finished n t answer course =>
    cases answer with
    | error fault => cases returned
    | ok ended =>
      have hfinish : marks [⟨.finish, .ok ended⟩] = [] := rfl
      constructor
      · rw [marks_opening_append, marks_append, hfinish, List.append_nil]
        exact (marks_of_course course).2 rfl
      · rw [← List.append_assoc, finishes_append, finishes_of_course course]
        rfl

theorem Delivery.of_failed (hdelivery : Delivery sink events h r) {failure : Failure}
    (failed : r = .error failure) : finishes h = 0 := by
  cases hdelivery with
  | halted course => exact finishes_of_course course
  | @finished n t answer course =>
    cases answer with
    | ok ended => cases failed
    | error fault =>
      rw [← List.append_assoc, finishes_append, finishes_of_course course]
      rfl

end Rounds

/-- However often a batch is delivered to an open sink until it returns, all rounds together mark each of its
events once and in order, and only the last round finishes it. -/
theorem redelivery_marks_once {sink : Sink} {events : List Event} {histories : List (List Exchange)}
    (opened : sink.isOpen = true) (h : Redelivery sink events histories) :
    marks histories.flatten = events ∧
      ∃ earlier last, histories = earlier ++ [last] ∧ finishes earlier.flatten = 0 ∧ finishes last = 1 := by
  induction h with
  | @returned σ world s events ok =>
    have hpath := Interaction.path_run world (sink.handleBatch events).run s
    have hdelivery := (path_handleBatch_iff opened).mp hpath
    obtain ⟨hmarks, hfinishes⟩ := hdelivery.of_returned ok
    refine ⟨?_, [], _, rfl, rfl, hfinishes⟩
    rw [List.flatten_singleton]
    exact hmarks
  | @failed σ world s events failure histories error later ih =>
    have hpath := Interaction.path_run world (sink.handleBatch events).run s
    have hdelivery := (path_handleBatch_iff opened).mp hpath
    obtain ⟨hmarks, earlier, last, rfl, hearlier, hlast⟩ := ih
    constructor
    · rw [List.flatten_cons, marks_append, hmarks]
      exact List.prefix_iff_eq_append.mp hdelivery.marks_prefix
    · refine ⟨_ :: earlier, last, rfl, ?_, hlast⟩
      rw [List.flatten_cons, finishes_append, hdelivery.of_failed error, hearlier]

/-- An outside that confirms every record, takes so many marks, and then the finish or not. -/
def yielding : World (Nat × Bool)
  | .connect _, s => (.ok ⟨"", false⟩, s)
  | .send request, s => (.ok (Payload.ofCodes (request.entries.map fun _ => .null)), s)
  | .submit _ _, s => (.ok [], s)
  | .sleep _, s => (.ok (), s)
  | .mark _, (0, finishing) => (.error ⟨.runtime, []⟩, (0, finishing))
  | .mark _, (n + 1, finishing) => (.ok (), (n, finishing))
  | .finish, (n, finishing) => (if finishing then .ok () else .error ⟨.runtime, []⟩, (n, finishing))
  | .close, s => (.ok (), s)
  | .note _, s => ((), s)

/-- The second mark is refused, then the finish, and at last nothing is left but to finish. -/
def keyedHistories : List (List Exchange) :=
  [Interaction.history yielding (plain.handleBatch keyedEvents).run (1, true),
    Interaction.history yielding (plain.handleBatch (keyedEvents.drop 1)).run (1, false),
    Interaction.history yielding (plain.handleBatch []).run (0, true)]

theorem redelivery_keyedHistories : Redelivery plain keyedEvents keyedHistories := by
  have hwindows : windows windowSize windowSize_pos (keyedEvents.drop 1) = [keyedEvents.drop 1] :=
    windows_of_length_le (by decide) (by decide)
  have hmark : (Interaction.run yielding (plain.handleBatch keyedEvents).run (1, true)).1
      = .error (.outside ⟨.runtime, []⟩) := by
    rw [handleBatch_of_isOpen rfl, windows_keyedEvents]
    rfl
  have hmarked : (marks (Interaction.history yielding (plain.handleBatch keyedEvents).run (1, true))).length
      = 1 := by
    rw [handleBatch_of_isOpen rfl, windows_keyedEvents]
    rfl
  have hfinish : (Interaction.run yielding (plain.handleBatch (keyedEvents.drop 1)).run (1, false)).1
      = .error (.outside ⟨.runtime, []⟩) := by
    rw [handleBatch_of_isOpen rfl, hwindows]
    rfl
  have hall : (marks (Interaction.history yielding (plain.handleBatch (keyedEvents.drop 1)).run
      (1, false))).length = 1 := by
    rw [handleBatch_of_isOpen rfl, hwindows]
    rfl
  refine .failed yielding (1, true) hmark ?_
  rw [hmarked]
  refine .failed yielding (1, false) hfinish ?_
  rw [hall]
  exact .returned yielding (0, true) rfl

/-- Both events are marked once over these rounds, and the last one finishes their batch. -/
theorem keyedHistories_mark_once :
    Redelivery plain keyedEvents keyedHistories ∧ marks keyedHistories.flatten = keyedEvents ∧
      ∃ earlier last, keyedHistories = earlier ++ [last] ∧ finishes earlier.flatten = 0 ∧ finishes last = 1 :=
  ⟨redelivery_keyedHistories, redelivery_marks_once rfl redelivery_keyedHistories⟩

end Sink

end EventDelivery

import Mathlib.Data.List.TakeWhile
import EventDelivery.Proofs.Redelivery
import EventDelivery.Proofs.Session

/-! The account that a tracker keeps. Whatever is asked of it, in any order, and however often the committer refuses,
it has counted the marks that were accepted, and it is finished when one finish was. -/

namespace EventDelivery
open Interaction (Path)
set_option autoImplicit false

namespace Tracker

inductive Operation where
  | acknowledge (events : List Event)
  | finish

namespace Operation

def lateness : Operation → Lateness
  | acknowledge _ => .acknowledgedAfterFinish
  | finish => .finishedTwice

def events? : Operation → Option (List Event)
  | acknowledge events => some events
  | finish => none

end Operation

def operate : Operation → Tracker → Interaction (Except Failure Unit × Tracker)
  | .acknowledge events, tracker => tracker.acknowledge events
  | .finish, tracker => tracker.finish

/-- All that an operation can do: events are marked up to the first refusal, a finish is accepted or not, and
nothing is asked of the committer any more once the tracker is finished. -/
inductive Operated (tracker : Tracker) :
    Operation → List Exchange → Except Failure Unit → Tracker → Prop where
  | marked {events : List Event} (unfinished : tracker.finished = false) :
      Operated tracker (.acknowledge events) (events.map Exchange.accepted) (.ok ())
        (tracker.advance events.length)
  | refused {xs ys : List Event} {event : Event} {fault : Fault} (unfinished : tracker.finished = false) :
      Operated tracker (.acknowledge (xs ++ event :: ys))
        (xs.map Exchange.accepted ++ [⟨.mark event, .error fault⟩]) (.error (.outside fault))
        (tracker.advance xs.length)
  | finished (unfinished : tracker.finished = false) :
      Operated tracker .finish [⟨.finish, .ok ()⟩] (.ok ()) { tracker with finished := true }
  | rejected {fault : Fault} (unfinished : tracker.finished = false) :
      Operated tracker .finish [⟨.finish, .error fault⟩] (.error (.outside fault)) tracker
  | late {operation : Operation} (finished : tracker.finished = true) :
      Operated tracker operation [] (.error (.late operation.lateness)) tracker

theorem operated_of_path {tracker next : Tracker} {operation : Operation} {t : List Exchange}
    {r : Except Failure Unit} (h : Path (operate operation tracker) t (r, next)) :
    Operated tracker operation t r next := by
  cases hfinished : tracker.finished with
  | true =>
    have hlate : operate operation tracker = .done (.error (.late operation.lateness), tracker) := by
      cases operation <;> exact if_pos hfinished
    rw [hlate] at h
    obtain ⟨rfl, hr⟩ := Interaction.path_done_iff.mp h
    obtain ⟨rfl, rfl⟩ := Prod.mk.inj hr
    exact .late hfinished
  | false =>
    have hopen : ¬tracker.finished = true := by simp [hfinished]
    cases operation with
    | acknowledge events =>
      have hmarks : Path (tracker.markAll events) t (r, next) := by
        rwa [operate, acknowledge, if_neg hopen] at h
      rcases path_markAll_iff.mp hmarks with ⟨rfl, hr⟩ | ⟨xs, event, ys, fault, rfl, rfl, hr⟩
      · obtain ⟨rfl, rfl⟩ := Prod.mk.inj hr
        exact .marked hfinished
      · obtain ⟨rfl, rfl⟩ := Prod.mk.inj hr
        exact .refused hfinished
    | finish =>
      rw [operate, finish, if_neg hopen] at h
      obtain ⟨answer, rest, rfl, hrest⟩ := Interaction.path_call_iff.mp h
      cases answer with
      | ok accepted =>
        obtain ⟨rfl, hr⟩ := Interaction.path_done_iff.mp hrest
        obtain ⟨rfl, rfl⟩ := Prod.mk.inj hr
        exact .finished hfinished
      | error fault =>
        obtain ⟨rfl, hr⟩ := Interaction.path_done_iff.mp hrest
        obtain ⟨rfl, rfl⟩ := Prod.mk.inj hr
        exact .rejected hfinished

/-- The longest part of some events, from the first one on, whose marks a history begins with. It ends with the
last event, or before one whose mark was asked for and refused. -/
structure LongestAccepted (events : List Event) (h : List Exchange) (part : List Event) : Prop where
  within : part <+: events
  accepted : part.map Exchange.accepted <+: h
  longest : ∀ other, other <+: events → other.map Exchange.accepted <+: h → other <+: part
  ended : part = events ∨ ∃ event rest fault, events = part ++ event :: rest ∧
    h = part.map Exchange.accepted ++ [⟨.mark event, .error fault⟩]

theorem longestAccepted_all (events : List Event) :
    LongestAccepted events (events.map Exchange.accepted) events :=
  ⟨List.prefix_refl _, List.prefix_refl _, fun _ within _ => within, .inl rfl⟩

theorem longestAccepted_refused (xs ys : List Event) (event : Event) (fault : Fault) :
    LongestAccepted (xs ++ event :: ys) (xs.map Exchange.accepted ++ [⟨.mark event, .error fault⟩]) xs := by
  refine ⟨List.prefix_append _ _, List.prefix_append _ _, fun other within accepted => ?_,
    .inr ⟨event, ys, fault, rfl, rfl⟩⟩
  rcases List.prefix_or_prefix_of_prefix within (List.prefix_append xs (event :: ys)) with hshort | hlong
  · exact hshort
  · obtain ⟨more, rfl⟩ := hlong
    cases more with
    | nil => exact (List.append_nil xs).symm ▸ List.prefix_refl xs
    | cons next more =>
      -- the mark after those of `xs` was refused, so it is not one of the accepted ones
      rw [List.map_append, List.prefix_append_right_inj] at accepted
      obtain ⟨rest, hrest⟩ := accepted
      obtain ⟨hmark, -⟩ := List.cons.inj hrest
      cases hmark

/-- The events that were handed over to be acknowledged before a finish was accepted, with what was exchanged for
them. -/
def handedOver (turns : List (Turn Operation (Except Failure Unit))) : List (List Event × List Exchange) :=
  (turns.takeWhile fun turn => finishes turn.history = 0).filterMap fun turn =>
    turn.operation.events?.map (·, turn.history)

structure Account (turns : List (Turn Operation (Except Failure Unit))) (tracker : Tracker) : Prop where
  processed : tracker.processed = (marks (Session.exchanges turns)).length
  finished : finishes (Session.exchanges turns) = if tracker.finished then 1 else 0
  /-- Each time events were handed over, the longest accepted part of them is marked. -/
  marked : ∃ parts : List (List Event),
    List.Forall₂ (fun handed part => LongestAccepted handed.1 handed.2 part) (handedOver turns) parts ∧
      marks (Session.exchanges turns) = parts.flatten

section Turns
variable {turns : List (Turn Operation (Except Failure Unit))} {last : Turn Operation (Except Failure Unit)}
  {tracker next : Tracker}

theorem finishes_exchanges_eq_zero_iff :
    finishes (Session.exchanges turns) = 0 ↔ ∀ turn ∈ turns, finishes turn.history = 0 := by
  simp only [finishes, Session.exchanges, List.countP_eq_zero, List.mem_flatMap]
  constructor
  · intro h turn hturn x hx
    exact h x ⟨turn, hturn, hx⟩
  · rintro h x ⟨turn, hturn, hx⟩
    exact h turn hturn x hx

theorem handedOver_concat_of_acknowledged {events : List Event} {t : List Exchange} {r : Except Failure Unit}
    (before : finishes (Session.exchanges turns) = 0) (unfinished : finishes t = 0) :
    handedOver (turns ++ [⟨.acknowledge events, t, r⟩]) = handedOver turns ++ [(events, t)] := by
  have hall : ∀ turn ∈ turns, decide (finishes turn.history = 0) = true := fun turn hturn =>
    decide_eq_true (finishes_exchanges_eq_zero_iff.mp before turn hturn)
  have hlast : decide (finishes (⟨.acknowledge events, t, r⟩ : Turn Operation _).history = 0) = true :=
    decide_eq_true unfinished
  rw [handedOver, handedOver, List.takeWhile_append_of_pos hall, List.takeWhile_eq_self_iff.mpr hall,
    List.filterMap_append, List.takeWhile_cons, if_pos hlast]
  rfl

theorem handedOver_concat_of_finish {t : List Exchange} {r : Except Failure Unit} :
    handedOver (turns ++ [⟨.finish, t, r⟩]) = handedOver turns := by
  rw [handedOver, handedOver, List.takeWhile_append]
  split
  · rename_i hall
    have hself : turns.takeWhile (fun turn => finishes turn.history = 0) = turns :=
      (List.takeWhile_prefix _).eq_of_length hall
    rw [hself, List.filterMap_append, List.takeWhile_cons]
    split <;> exact List.append_nil _
  · rfl

theorem handedOver_concat_of_finished (finished : finishes (Session.exchanges turns) ≠ 0) :
    handedOver (turns ++ [last]) = handedOver turns := by
  have hsome : ¬(turns.takeWhile fun turn => finishes turn.history = 0).length = turns.length := by
    intro hall
    apply finished
    apply finishes_exchanges_eq_zero_iff.mpr
    intro turn hturn
    exact of_decide_eq_true (List.takeWhile_eq_self_iff.mp ((List.takeWhile_prefix _).eq_of_length hall) turn hturn)
  rw [handedOver, handedOver, List.takeWhile_append, if_neg hsome]

@[simp] theorem finishes_accepted (events : List Event) : finishes (events.map Exchange.accepted) = 0 := by
  apply finishes_eq_zero
  intro x hx
  obtain ⟨event, -, rfl⟩ := List.mem_map.mp hx
  rfl

theorem Account.acknowledged (h : Account turns tracker) (unfinished : tracker.finished = false)
    {events part : List Event} {t : List Exchange} (longest : LongestAccepted events t part)
    (marks_eq : marks t = part) (finishless : finishes t = 0) (r : Except Failure Unit) :
    Account (turns ++ [⟨.acknowledge events, t, r⟩]) (tracker.advance part.length) := by
  have hbefore : finishes (Session.exchanges turns) = 0 := by
    rw [h.finished, unfinished]
    rfl
  obtain ⟨parts, hparts, hmarks⟩ := h.marked
  constructor
  · rw [Session.exchanges_concat, marks_append, marks_eq, List.length_append, ← h.processed]
    rfl
  · rw [Session.exchanges_concat, finishes_append, hbefore, finishless, advance, unfinished]
    rfl
  · refine ⟨parts ++ [part], ?_, ?_⟩
    · rw [handedOver_concat_of_acknowledged hbefore finishless]
      exact List.rel_append hparts (.cons longest .nil)
    · rw [Session.exchanges_concat, marks_append, marks_eq, hmarks, List.flatten_append, List.flatten_singleton]

theorem Account.unmarked (h : Account turns tracker) (handed : handedOver (turns ++ [last]) = handedOver turns)
    (markless : marks last.history = []) (processed : next.processed = tracker.processed)
    (finished : finishes (Session.exchanges turns) + finishes last.history
      = if next.finished then 1 else 0) : Account (turns ++ [last]) next := by
  constructor
  · rw [Session.exchanges_concat, marks_append, markless, List.append_nil, processed, h.processed]
  · rw [Session.exchanges_concat, finishes_append, finished]
  · rw [handed, Session.exchanges_concat, marks_append, markless, List.append_nil]
    exact h.marked

theorem Account.step {operation : Operation} {t : List Exchange} {r : Except Failure Unit}
    (h : Account turns tracker) (operated : Operated tracker operation t r next) :
    Account (turns ++ [⟨operation, t, r⟩]) next := by
  cases operated with
  | marked unfinished =>
    exact h.acknowledged unfinished (longestAccepted_all _) (marks_accepted _) (finishes_accepted _) _
  | @refused xs ys event fault unfinished =>
    have hmarks : marks [⟨.mark event, .error fault⟩] = [] := rfl
    have hfinishes : finishes [⟨.mark event, .error fault⟩] = 0 := rfl
    apply h.acknowledged unfinished (longestAccepted_refused _ _ _ _)
    · rw [marks_append, marks_accepted, hmarks, List.append_nil]
    · rw [finishes_append, finishes_accepted, hfinishes]
  | finished unfinished =>
    refine h.unmarked handedOver_concat_of_finish rfl rfl ?_
    rw [h.finished, unfinished]
    rfl
  | rejected unfinished =>
    refine h.unmarked handedOver_concat_of_finish rfl rfl ?_
    rw [h.finished, unfinished]
    rfl
  | late finished =>
    have hbefore : finishes (Session.exchanges turns) = 1 := by rw [h.finished, finished, if_pos rfl]
    refine h.unmarked (handedOver_concat_of_finished (by rw [hbefore]; exact Nat.one_ne_zero)) rfl rfl ?_
    rw [hbefore, finished]
    rfl

end Turns

structure Answers (tracker : Tracker) (turn : Turn Operation (Except Failure Unit)) (next : Tracker) : Prop where
  /-- Where a mark or the finish is refused, the finish is still to come. -/
  refused : ∀ fault, turn.reply = .error (.outside fault) → next.finished = false
  /-- The finish is asked for, as often as it takes. -/
  asked : tracker.finished = false → turn.operation = .finish →
    ∃ answer : Except Fault Unit, turn.history = [⟨.finish, answer⟩] ∧ turn.reply = answer.mapError .outside
  /-- Nothing is asked for after that. -/
  late : tracker.finished = true →
    turn.history = [] ∧ turn.reply = .error (.late turn.operation.lateness) ∧ next = tracker

theorem Operated.answers {tracker next : Tracker} {operation : Operation} {t : List Exchange}
    {r : Except Failure Unit} (h : Operated tracker operation t r next) :
    Answers tracker ⟨operation, t, r⟩ next := by
  constructor
  · intro fault hreply
    cases h with
    | refused unfinished | rejected unfinished => exact unfinished
    | marked | finished | late => cases hreply
  · intro hopen hfinish
    cases h with
    | finished => exact ⟨.ok (), rfl, rfl⟩
    | @rejected fault => exact ⟨.error fault, rfl, rfl⟩
    | late finished => cases hopen.symm.trans finished
    | marked | refused => cases hfinish
  · intro hlate
    cases h with
    | late => exact ⟨rfl, rfl, rfl⟩
    | marked unfinished | refused unfinished | finished unfinished | rejected unfinished =>
      cases hlate.symm.trans unfinished

/-- After any operations on a new tracker, each with a committer that may refuse what it likes, the account is right,
and whatever is asked next, the tracker asks the committer for just what the operation means. -/
theorem account_of_session {σ : Type} (steps : List (World σ × Operation)) (s : σ) :
    Account (Session.turns operate steps fresh s) (Session.after operate steps fresh s).1 ∧
    ∀ (world : World σ) (operation : Operation),
      let (tracker, now) := Session.after operate steps fresh s
      let turn := Session.turn operate world operation tracker now
      let next := (Interaction.run world (operate operation tracker) now).1.2
      Operated tracker operation turn.history turn.reply next ∧ Answers tracker turn next := by
  have hstart : Account [] fresh := ⟨rfl, rfl, [], .nil, rfl⟩
  constructor
  · exact Session.holds_after (fun h hpath => h.step (operated_of_path hpath)) hstart steps s
  · intro world operation
    obtain ⟨tracker, now⟩ := Session.after operate steps fresh s
    have hoperated := operated_of_path (Interaction.path_run world (operate operation tracker) now)
    exact ⟨hoperated, hoperated.answers⟩

/-- The second mark is refused, and the finish is accepted once. -/
example : (Session.turns operate [(Sink.yielding, .acknowledge Sink.keyedEvents), (Sink.yielding, .finish),
      (Sink.yielding, .finish)] fresh (1, true)).map Turn.reply
    = [.error (.outside ⟨.runtime, []⟩), .ok (), .error (.late .finishedTwice)] := rfl

end Tracker

end EventDelivery

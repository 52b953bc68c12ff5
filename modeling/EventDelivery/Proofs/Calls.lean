import EventDelivery.Service
import EventDelivery.Proofs.Path

/-! What an interaction may call, whatever it is answered. Publishing a window sends, pauses and notes;
delivering a batch marks and finishes besides; lines are delivered without a committer, and nothing of
this makes a client or closes it. -/

namespace EventDelivery
open Interaction (Path)
set_option autoImplicit false

namespace Call

/-- The calls that publish a window, with what its writer and its attempts note. -/
def isOfWindow : Call → Bool
  | send _ | sleep _ => true
  | note notice => notice.component = .writer || notice.component = .retry
  | _ => false

def isOfBatch : Call → Bool
  | send _ | sleep _ => true
  | note notice => notice.component ≠ .service
  | _ => false

def isOfDelivery : Call → Bool
  | mark _ | finish => true
  | c => c.isOfBatch

/-- The calls that publish the events of lines. -/
def isOutward : Call → Bool
  | send _ | sleep _ | note _ => true
  | _ => false

theorem isOfBatch_of_isOfWindow {c : Call} (h : c.isOfWindow) : c.isOfBatch := by
  cases c with
  | note notice =>
    simp only [isOfWindow, Bool.or_eq_true, decide_eq_true_eq] at h
    rcases h with h | h <;> simp [isOfBatch, h]
  | send | sleep => rfl
  | _ => cases h

theorem isOfDelivery_of_isOfBatch {c : Call} (h : c.isOfBatch) : c.isOfDelivery := by
  cases c <;> first | exact h | cases h

theorem isOutward_of_isOfBatch {c : Call} (h : c.isOfBatch) : c.isOutward := by
  cases c <;> first | rfl | cases h

end Call

namespace Interaction

variable {α β σ : Type} {kind : Call → Prop}

/-- Each call that the interaction can come to is of the kind. -/
def Calls (kind : Call → Prop) : Interaction α → Prop
  | done _ => True
  | call c next => kind c ∧ ∀ answer, Calls kind (next answer)

theorem Calls.mono {p : Interaction α} {other : Call → Prop} (h : p.Calls kind)
    (himp : ∀ c, kind c → other c) : p.Calls other := by
  induction p with
  | done a => trivial
  | call c next ih =>
    constructor
    · exact himp c h.1
    · intro answer
      exact ih answer (h.2 answer)

theorem Calls.bind {p : Interaction α} {f : α → Interaction β} (hp : p.Calls kind)
    (hf : ∀ a, (f a).Calls kind) : (p >>= f).Calls kind := by
  induction p with
  | done a => exact hf a
  | call c next ih =>
    constructor
    · exact hp.1
    · intro answer
      exact ih answer (hp.2 answer)

theorem Calls.of_path {p : Interaction α} {t : List Exchange} {a : α} (h : p.Calls kind)
    (hpath : Path p t a) : ∀ x ∈ t, kind x.call := by
  induction hpath with
  | done a => exact List.forall_mem_nil _
  | @call c next answer t a rest ih =>
    intro x hx
    rcases List.mem_cons.mp hx with rfl | hx
    · exact h.1
    · exact ih (h.2 answer) x hx

theorem Calls.run_congr {p : Interaction α} {first second : World σ} (h : p.Calls kind)
    (alike : ∀ c s, kind c → first c s = second c s) (s : σ) :
    run first p s = run second p s ∧ history first p s = history second p s := by
  induction p generalizing s with
  | done a => exact ⟨rfl, rfl⟩
  | call c next ih =>
    simp only [run_call, history_call, alike c s h.1]
    obtain ⟨hrun, hhistory⟩ := ih _ (h.2 _) (second c s).2
    exact ⟨hrun, congrArg _ hhistory⟩

/-- The batch's committer is played by a list, so nothing is left for it of a delivery. -/
theorem Calls.collecting {p : Interaction α} (h : p.Calls (·.isOfDelivery)) (marked : Array Event)
    (finished : Bool) : (collecting marked finished p).Calls (·.isOfBatch) := by
  induction p generalizing marked finished with
  | done a => trivial
  | call c next ih =>
    cases c with
    | mark event => exact ih _ (h.2 _) _ _
    | finish => exact ih _ (h.2 _) _ _
    | _ =>
      constructor
      · exact h.1
      · intro answer
        exact ih answer (h.2 answer) _ _

end Interaction

namespace Action

variable {α β : Type} {kind : Call → Prop}

theorem calls_bind {x : Action α} {f : α → Action β} (hx : x.run.Calls kind)
    (hf : ∀ a, (f a).run.Calls kind) : (x >>= f).run.Calls kind := by
  rw [ExceptT.run_bind]
  apply hx.bind
  intro ending
  cases ending with
  | ok a => exact hf a
  | error failure => trivial

theorem calls_lift (x : Except Failure α) : (liftM x : Action α).run.Calls kind := trivial

theorem calls_note {notice : Notice} (h : kind (.note notice)) : (note notice).run.Calls kind :=
  ⟨h, fun _ => trivial⟩

theorem calls_ofCall {c : Call} {read : c.Answer → Except Failure α} (h : kind c) :
    (ofCall c read).run.Calls kind :=
  ⟨h, fun _ => trivial⟩

end Action

open EventDelivery.Action (calls_bind calls_lift calls_note calls_ofCall)

theorem Writer.calls_putRecords {kind : Call → Prop} (send : ∀ request, kind (.send request))
    (note : ∀ stream count, kind (.note (.response stream count))) (naming : Text → Text)
    (destination : Text) (records : List Record) :
    (putRecords naming destination records).run.Calls kind := by
  unfold putRecords
  split
  · trivial
  · apply calls_bind (calls_ofCall (send _))
    intro response
    apply calls_bind (calls_lift _)
    intro count
    apply calls_bind (calls_note (note _ _))
    intro noted
    trivial

namespace Retry

theorem calls_attempt {kind : Call → Prop} {submit : Submission} {destination : Text} {pending : List Record}
    (h : (submit destination pending).run.Calls kind) :
    (attempt submit destination pending).run.Calls kind := by
  apply Interaction.Calls.bind h
  intro reply
  split <;> trivial

theorem calls_backoff {kind : Call → Prop} {interval : Seconds} (sleep : kind (.sleep interval)) (left : Nat) :
    (backoff interval left).run.Calls kind := by
  unfold backoff
  split
  · trivial
  · exact calls_ofCall sleep

theorem calls_publishFrom {kind : Call → Prop} {submit : Submission} {interval : Seconds} {destination : Text}
    (submitted : ∀ pending, (submit destination pending).run.Calls kind) (sleep : kind (.sleep interval))
    (note : ∀ notice : Notice, notice.component = .retry → kind (.note notice)) (left made : Nat)
    (pending : List Record) : (publishFrom submit interval destination left made pending).run.Calls kind := by
  induction left generalizing made pending with
  | zero =>
    apply calls_bind (calls_note (note _ rfl))
    intro noted
    trivial
  | succ left ih =>
    apply calls_bind (calls_attempt (submitted pending))
    intro told
    cases told with
    | inr failure =>
      apply calls_bind (calls_note (note _ rfl))
      intro noted
      apply calls_bind (calls_backoff sleep left)
      intro paused
      exact ih _ _
    | inl results =>
      by_cases hall : (failed results).isEmpty
      · simp only [hall, if_true]
        trivial
      · simp only [hall, Bool.false_eq_true, if_false]
        apply calls_bind (calls_note (note _ rfl))
        intro noted
        apply calls_bind (calls_backoff sleep left)
        intro paused
        exact ih _ _

end Retry

end EventDelivery

import EventDelivery.Retry
import EventDelivery.Proofs.Path

/-! The course of publishing a window: all that can happen from one attempt to the next, whatever the
submission replies and wherever a pause is cut short. -/

namespace EventDelivery.Retry
open Interaction (Path)
set_option autoImplicit false

/-- The records that are to be submitted again after a reply; none after one that ends the publishing. -/
def again? (pending : List Record) : Except Failure (List Result) → Option (List Record)
  | .ok results =>
    if (failed results).isEmpty then none else some ((failed results).map Result.record)
  | .error (.transport _ _) => some pending
  | .error _ => none

theorem ne_nil_of_again? {pending rest : List Record} {reply : Except Failure (List Result)}
    (h : again? pending reply = some rest) (hne : pending ≠ []) : rest ≠ [] := by
  unfold again? at h
  split at h
  · split at h
    · cases h
    · rename_i hfailed
      obtain rfl := Option.some.inj h
      simpa using hfailed
  · exact Option.some.inj h ▸ hne
  · cases h

def pauses (interval : Seconds) (left : Nat) : List Exchange :=
  if left = 0 then [] else [⟨.sleep interval, .ok ()⟩]

/-- What happens while pending records are published with so many attempts left and made. -/
inductive Course (submit : Submission) (interval : Seconds) (destination : Text) :
    (left made : Nat) → (pending : List Record) → List Exchange → Except Failure Nat → Prop where
  | exhausted {made : Nat} {pending : List Record} {notice : Notice} :
      Course submit interval destination 0 made pending [⟨.note notice, ()⟩]
        (.error (.delivery ⟨destination, made, pending.map fun record => (record.position : Int)⟩))
  | confirmed {left made : Nat} {pending : List Record} {t : List Exchange} {results : List Result}
      (replied : Path (submit destination pending).run t (.ok results)) (all : failed results = []) :
      Course submit interval destination (left + 1) made pending t (.ok (made + 1))
  | broken {left made : Nat} {pending : List Record} {t : List Exchange} {failure : Failure}
      (replied : Path (submit destination pending).run t (.error failure))
      (final : again? pending (.error failure) = none) :
      Course submit interval destination (left + 1) made pending t (.error failure)
  | cancelled {left made : Nat} {pending rest : List Record} {t : List Exchange}
      {reply : Except Failure (List Result)} {notice : Notice} (more : 0 < left)
      (replied : Path (submit destination pending).run t reply) (asked : again? pending reply = some rest) :
      Course submit interval destination (left + 1) made pending
        (t ++ [⟨.note notice, ()⟩, ⟨.sleep interval, .error ()⟩]) (.error .cancelled)
  | again {left made : Nat} {pending rest : List Record} {t u : List Exchange}
      {reply : Except Failure (List Result)} {notice : Notice} {r : Except Failure Nat}
      (replied : Path (submit destination pending).run t reply) (asked : again? pending reply = some rest)
      (later : Course submit interval destination left (made + 1) rest u r) :
      Course submit interval destination (left + 1) made pending
        (t ++ ⟨.note notice, ()⟩ :: pauses interval left ++ u) r

section Paths
variable {submit : Submission} {interval : Seconds} {destination : Text} {left made : Nat}
  {pending : List Record} {t : List Exchange}

theorem path_attempt {r : Except Failure (List Result ⊕ Text × Option Text)}
    (h : Path (attempt submit destination pending).run t r) :
    ∃ reply, Path (submit destination pending).run t reply ∧
      match reply with
      | .ok results => r = .ok (.inl results)
      | .error (.transport message code) => r = .ok (.inr (message, code))
      | .error failure => r = .error failure := by
  obtain ⟨reply, t₁, t₂, hreply, hrest, rfl⟩ := Interaction.path_bind_iff.mp h
  refine ⟨reply, ?_⟩
  split at hrest <;> obtain ⟨rfl, rfl⟩ := Interaction.path_done_iff.mp hrest <;>
    simp_all

/-- After the notice of an attempt comes the pause, if there is one, and the rest only if that ends. -/
theorem path_backoff {α : Type} {notice : Notice} {next : Action α} {r : Except Failure α}
    (h : Path (do Action.note notice; backoff interval left; next).run t r) :
    (0 < left ∧ t = [⟨.note notice, ()⟩, ⟨.sleep interval, .error ()⟩] ∧ r = .error .cancelled) ∨
      ∃ u, t = ⟨.note notice, ()⟩ :: pauses interval left ++ u ∧ Path next.run u r := by
  obtain ⟨t₂, rfl, hrest⟩ := Action.path_note_bind_iff.mp h
  by_cases hleft : left = 0
  · subst hleft
    exact .inr ⟨t₂, rfl, hrest⟩
  · rw [backoff, if_neg hleft] at hrest
    rcases Action.path_bind_iff.mp hrest with ⟨e, hpause, rfl⟩ | ⟨_, t₃, t₄, hpause, hnext, rfl⟩
    · obtain ⟨answer, rfl, he⟩ := Action.path_ofCall_iff.mp hpause
      cases answer with
      | ok ended => cases he
      | error cut =>
        obtain rfl := Except.error.inj he
        exact .inl ⟨Nat.pos_of_ne_zero hleft, rfl, rfl⟩
    · obtain ⟨answer, rfl, hok⟩ := Action.path_ofCall_iff.mp hpause
      cases answer with
      | ok ended => exact .inr ⟨t₄, by simp [pauses, hleft], hnext⟩
      | error cut => cases hok

theorem course_of_path {r : Except Failure Nat}
    (h : Path (publishFrom submit interval destination left made pending).run t r) :
    Course submit interval destination left made pending t r := by
  induction left generalizing made pending t r with
  | zero =>
    obtain ⟨t₂, rfl, hthrow⟩ := Action.path_note_bind_iff.mp h
    obtain ⟨rfl, rfl⟩ := Action.path_throw_iff.mp hthrow
    exact .exhausted
  | succ left ih =>
    rcases Action.path_bind_iff.mp h with ⟨e, hattempt, rfl⟩ | ⟨told, t₁, t₂, hattempt, hrest, rfl⟩
    · obtain ⟨reply, hreply, hr⟩ := path_attempt hattempt
      split at hr
      · cases hr
      · cases hr
      · obtain rfl := Except.error.inj hr
        rename_i hne
        exact .broken hreply (by cases e <;> first | rfl | exact absurd rfl (hne _ _))
    · obtain ⟨reply, hreply, hr⟩ := path_attempt hattempt
      split at hr
      · rename_i results
        obtain rfl := Except.ok.inj hr
        by_cases hall : (failed results).isEmpty
        · simp only [hall, if_true] at hrest
          obtain ⟨rfl, rfl⟩ := Action.path_pure_iff.mp hrest
          rw [List.append_nil]
          exact .confirmed hreply (List.isEmpty_iff.mp hall)
        · simp only [hall, Bool.false_eq_true, if_false] at hrest
          have hasked : again? pending (.ok results) = some ((failed results).map Result.record) :=
            if_neg hall
          rcases path_backoff hrest with ⟨hleft, rfl, rfl⟩ | ⟨u, rfl, hnext⟩
          · exact .cancelled hleft hreply hasked
          · rw [← List.append_assoc]
            exact .again hreply hasked (ih hnext)
      · obtain rfl := Except.ok.inj hr
        rcases path_backoff hrest with ⟨hleft, rfl, rfl⟩ | ⟨u, rfl, hnext⟩
        · exact .cancelled hleft hreply rfl
        · rw [← List.append_assoc]
          exact .again hreply rfl (ih hnext)
      · cases hr

theorem course_of_publish {policy : RetryPolicy} {records : List Record} {r : Except Failure Nat}
    (nonempty : records ≠ []) (h : Path (publish submit policy destination records).run t r) :
    Course submit policy.interval destination policy.attempts 0 records t r := by
  have hempty : records.isEmpty = false := by simpa using nonempty
  simp only [publish, hempty, Bool.false_eq_true, if_false] at h
  exact course_of_path h

end Paths

end EventDelivery.Retry

import EventDelivery.Proofs.Answer
import EventDelivery.Proofs.History
import EventDelivery.Proofs.Publication

/-! The requests that publish a window. The first one carries all records of the window, every other one
what the answers before it left unconfirmed. -/

namespace EventDelivery
open Interaction (Path)
set_option autoImplicit false

section Logs
variable (fails : Payload → Bool)

/-- What the answers of a log leave unconfirmed of the records. -/
def remaining : List Record → List Attempt → List Record
  | records, [] => records
  | records, a :: log => remaining (unconfirmed fails records a.answer) log

def carried : List Record → List Attempt → List (List Record)
  | _, [] => []
  | records, a :: log => records :: carried (unconfirmed fails records a.answer) log

/-- The requests of a log go to the stream, and each carries what those before it left unconfirmed. -/
def Follows (stream : Text) : List Record → List Attempt → Prop
  | _, [] => True
  | records, a :: log =>
    records ≠ [] ∧ a.request = ⟨stream, records.map Record.entry⟩ ∧
      Follows stream (unconfirmed fails records a.answer) log

end Logs

theorem carried_sublist {fails : Payload → Bool} {records cargo : List Record} {log : List Attempt}
    (h : cargo ∈ carried fails records log) : cargo.Sublist records := by
  induction log generalizing records with
  | nil => cases h
  | cons a log ih =>
    rcases List.mem_cons.mp h with rfl | h
    · exact .refl _
    · exact (ih h).trans (unconfirmed_sublist _ _ _)

theorem Writer.unconfirmed_of_again? {fails : Payload → Bool} (outcomes : Payload.GoesByOutcome fails)
    {stream : Text} {pending rest : List Record} {answer : Except RequestFailure Payload}
    (h : Retry.again? pending (reply stream pending answer) = some rest) :
    unconfirmed fails pending answer = rest := by
  unfold Retry.again? at h
  split at h
  · rename_i results hreply
    rw [unconfirmed_of_reply_ok outcomes hreply]
    split at h
    · cases h
    · exact Option.some.inj h
  · rename_i message code hreply
    rw [unconfirmed_of_reply_transport hreply]
    exact Option.some.inj h
  · cases h

theorem Writer.sent_of_path {naming : Text → Text} {destination : Text} {records : List Record}
    {t : List Exchange} {r : Except Failure (List Result)} (hne : records ≠ [])
    (h : Path (putRecords naming destination records).run t r) :
    ∃ answer, attempts t = [⟨⟨naming destination, records.map Record.entry⟩, answer⟩] ∧
      (∀ x ∈ t, x.isPublishing) ∧ r = reply (naming destination) records answer := by
  have hempty : records.isEmpty = false := by simpa using hne
  simp only [putRecords, hempty, Bool.false_eq_true, if_false] at h
  rcases Action.path_bind_iff.mp h with ⟨e, hsend, rfl⟩ | ⟨response, t₁, t₂, hsend, hread, rfl⟩
  · obtain ⟨answer, rfl, hanswer⟩ := Action.path_ofCall_iff.mp hsend
    exact ⟨answer, rfl, by simp [Exchange.isPublishing],
      (bind_eq_error_iff.mpr (.inl hanswer.symm)).symm⟩
  obtain ⟨answer, rfl, hanswer⟩ := Action.path_ofCall_iff.mp hsend
  rcases Action.path_bind_iff.mp hread with ⟨e, hcount, rfl⟩ | ⟨count, t₃, t₄, hcount, hnoted, rfl⟩
  · obtain ⟨rfl, hcounted⟩ := Action.path_lift_iff.mp hcount
    exact ⟨answer, rfl, by simp [Exchange.isPublishing], (bind_eq_error_iff.mpr
      (.inr ⟨response, hanswer.symm, bind_eq_error_iff.mpr (.inl hcounted.symm)⟩)).symm⟩
  obtain ⟨rfl, hcounted⟩ := Action.path_lift_iff.mp hcount
  obtain ⟨t₅, rfl, hresults⟩ := Action.path_note_bind_iff.mp hnoted
  obtain ⟨rfl, rfl⟩ := Action.path_lift_iff.mp hresults
  exact ⟨answer, rfl, by simp [Exchange.isPublishing],
    ((bind_of_eq_ok hanswer.symm).trans (bind_of_eq_ok hcounted.symm)).symm⟩

/-- How the requests of a window end: the answers left nothing unconfirmed, or something ended them. -/
inductive Conclusion (stream destination : Text) (budget made : Nat) (records : List Record)
    (log : List Attempt) (t : List Exchange) : Except Failure Nat → Prop where
  | confirmed (all : remaining Payload.reportsFailure records log = []) :
      Conclusion stream destination budget made records log t (.ok (made + log.length))
  | exhausted (spent : log.length = budget)
      (some : remaining Payload.reportsFailure records log ≠ []) :
      Conclusion stream destination budget made records log t (.error (.delivery
        ⟨destination, (made + budget : Nat), (remaining Payload.reportsFailure records log).map
          fun record => (record.position : Int)⟩))
  | broken {earlier : List Attempt} {last : Attempt} {failure : Failure} (split : log = earlier ++ [last])
      (reply : Writer.reply stream (remaining Payload.reportsFailure records earlier) last.answer
        = .error failure)
      (final : Retry.again? (remaining Payload.reportsFailure records earlier) (.error failure) = none) :
      Conclusion stream destination budget made records log t (.error failure)
  | cancelled {interval : Seconds} (cut : ⟨.sleep interval, .error ()⟩ ∈ t) :
      Conclusion stream destination budget made records log t (.error .cancelled)

/-- The log of a window that is published with so many attempts left. -/
structure Published (stream destination : Text) (left made : Nat) (records : List Record)
    (t : List Exchange) (r : Except Failure Nat) : Prop where
  publishing : ∀ x ∈ t, x.isPublishing
  follows : Follows Payload.reportsFailure stream records (attempts t)
  within : (attempts t).length ≤ left
  concludes : Conclusion stream destination left made records (attempts t) t r

theorem isPausing_of_mem_pauses {interval : Seconds} {left : Nat} {notice : Notice} {x : Exchange}
    (h : x ∈ ⟨.note notice, ()⟩ :: Retry.pauses interval left) : x.isPausing := by
  rcases List.mem_cons.mp h with rfl | h
  · rfl
  · unfold Retry.pauses at h
    split at h
    · cases h
    · rw [List.mem_singleton.mp h]
      rfl

theorem Conclusion.cons {stream destination : Text} {budget made : Nat} {records : List Record}
    {a : Attempt} {log : List Attempt} {t u : List Exchange} {r : Except Failure Nat}
    (h : Conclusion stream destination budget (made + 1)
      (unconfirmed Payload.reportsFailure records a.answer) log u r) :
    Conclusion stream destination (budget + 1) made records (a :: log) (t ++ u) r := by
  cases h with
  | confirmed all =>
    rw [Nat.add_assoc, Nat.add_comm 1]
    exact .confirmed all
  | exhausted spent some =>
    rw [Nat.add_assoc, Nat.add_comm 1]
    exact .exhausted (congrArg (· + 1) spent) some
  | @broken earlier last failure split reply final =>
    have hsplit : a :: log = (a :: earlier) ++ [last] := congrArg (a :: ·) split
    exact .broken hsplit reply final
  | cancelled cut => exact .cancelled (List.mem_append_right t cut)

theorem published_of_course {naming : Text → Text} {interval : Seconds} {destination : Text}
    {left made : Nat} {pending : List Record} {t : List Exchange} {r : Except Failure Nat}
    (h : Retry.Course (Writer.putRecords naming) interval destination left made pending t r)
    (hne : pending ≠ []) : Published (naming destination) destination left made pending t r := by
  induction h with
  | exhausted => exact ⟨by simp [Exchange.isPublishing], trivial, Nat.le_refl 0, .exhausted rfl hne⟩
  | @confirmed left made pending t results replied all =>
    obtain ⟨answer, hlog, hpublishing, hreply⟩ := Writer.sent_of_path hne replied
    have hall : unconfirmed Payload.reportsFailure pending answer = [] := by
      rw [Writer.unconfirmed_of_reply_ok Payload.goesByOutcome_reportsFailure hreply.symm, all, List.map_nil]
    refine ⟨hpublishing, ?_, ?_, ?_⟩ <;> rw [hlog]
    · exact ⟨hne, rfl, trivial⟩
    · exact Nat.succ_le_succ (Nat.zero_le left)
    · exact .confirmed hall
  | @broken left made pending t failure replied final =>
    obtain ⟨answer, hlog, hpublishing, hreply⟩ := Writer.sent_of_path hne replied
    refine ⟨hpublishing, ?_, ?_, ?_⟩ <;> rw [hlog]
    · exact ⟨hne, rfl, trivial⟩
    · exact Nat.succ_le_succ (Nat.zero_le left)
    · exact .broken (List.nil_append _).symm hreply.symm final
  | @cancelled left made pending rest t reply notice more replied asked =>
    obtain ⟨answer, hlog, hpublishing, hreply⟩ := Writer.sent_of_path hne replied
    have hpausing : ∀ x ∈ ([⟨.note notice, ()⟩, ⟨.sleep interval, .error ()⟩] : List Exchange),
        x.isPausing := by simp [Exchange.isPausing]
    have hattempts : attempts (t ++ [⟨.note notice, ()⟩, ⟨.sleep interval, .error ()⟩]) = attempts t := by
      rw [attempts_append, attempts_of_pausing hpausing, List.append_nil]
    refine ⟨?_, ?_, ?_, .cancelled (List.mem_append_right t (List.mem_cons_of_mem _ List.mem_cons_self))⟩
    · intro x hx
      rcases List.mem_append.mp hx with hx | hx
      · exact hpublishing x hx
      · exact Exchange.isPublishing_of_isPausing (hpausing x hx)
    · rw [hattempts, hlog]
      exact ⟨hne, rfl, trivial⟩
    · rw [hattempts, hlog]
      exact Nat.succ_le_succ (Nat.zero_le left)
  | @again left made pending rest t u reply notice r replied asked later ih =>
    obtain ⟨answer, hlog, hpublishing, rfl⟩ := Writer.sent_of_path hne replied
    have hrest : unconfirmed Payload.reportsFailure pending answer = rest :=
      Writer.unconfirmed_of_again? Payload.goesByOutcome_reportsFailure asked
    obtain ⟨hlater, hfollows, hwithin, hconcludes⟩ := ih (Retry.ne_nil_of_again? asked hne)
    have hattempts : attempts (t ++ ⟨.note notice, ()⟩ :: Retry.pauses interval left ++ u)
        = ⟨⟨naming destination, pending.map Record.entry⟩, answer⟩ :: attempts u := by
      rw [attempts_append, attempts_append, hlog, attempts_of_pausing fun x => isPausing_of_mem_pauses]
      rfl
    refine ⟨?_, ?_, ?_, ?_⟩
    · intro x hx
      rcases List.mem_append.mp hx with hx | hx
      · rcases List.mem_append.mp hx with hx | hx
        · exact hpublishing x hx
        · exact Exchange.isPublishing_of_isPausing (isPausing_of_mem_pauses hx)
      · exact hlater x hx
    · rw [hattempts]
      exact ⟨hne, rfl, hrest ▸ hfollows⟩
    · rw [hattempts]
      exact Nat.succ_le_succ hwithin
    · rw [hattempts]
      exact Conclusion.cons (hrest ▸ hconcludes)

end EventDelivery

import EventDelivery.Proofs.Boundary

/-! Windows that are given up. When the attempts on a window are spent, what is left of it are the records
that no answer to their requests confirmed, and all requests before those went to earlier windows. -/

namespace EventDelivery
open Interaction (Path)
set_option autoImplicit false

/-- Some answer of a log speaks of the record, and its entry in the place of the record does not fail. -/
def ConfirmedIn (fails : Payload → Bool) (records : List Record) (log : List Attempt)
    (record : Record) : Prop :=
  ∃ (k : Nat) (a : Attempt) (cargo : List Record) (i : Nat) (response : Payload) (entries : List Payload)
    (entry : Payload), log[k]? = some a ∧ (carried fails records log)[k]? = some cargo ∧
      cargo[i]? = some record ∧ a.answer = .ok response ∧ response.told? cargo.length = some entries ∧
      entries[i]? = some entry ∧ fails entry = false

section Logs
variable {fails : Payload → Bool} {records : List Record} {a : Attempt} {log : List Attempt} {record : Record}

theorem remaining_sublist : (remaining fails records log).Sublist records := by
  induction log generalizing records with
  | nil => exact .refl _
  | cons a log ih => exact ih.trans (unconfirmed_sublist _ _ _)

theorem ConfirmedIn.cons (h : ConfirmedIn fails (unconfirmed fails records a.answer) log record) :
    ConfirmedIn fails records (a :: log) record := by
  obtain ⟨k, b, cargo, hrest⟩ := h
  exact ⟨k + 1, b, cargo, hrest⟩

theorem ConfirmedIn.of_cons (nodup : records.Nodup) (hmem : record ∈ unconfirmed fails records a.answer)
    (h : ConfirmedIn fails records (a :: log) record) :
    ConfirmedIn fails (unconfirmed fails records a.answer) log record := by
  obtain ⟨k, b, cargo, i, response, entries, entry, hb, hcargo, hi, hanswer, htold, hentry, hfails⟩ := h
  cases k with
  | zero =>
    obtain rfl := Option.some.inj hb
    obtain rfl := Option.some.inj hcargo
    rw [hanswer] at hmem
    exact absurd hmem (not_mem_unconfirmed nodup htold hi hentry hfails)
  | succ k => exact ⟨k, b, cargo, i, response, entries, entry, hb, hcargo, hi, hanswer, htold, hentry, hfails⟩

theorem mem_remaining_iff (nodup : records.Nodup) (hmem : record ∈ records) :
    record ∈ remaining fails records log ↔ ¬ ConfirmedIn fails records log record := by
  induction log generalizing records with
  | nil =>
    refine ⟨fun _ h => ?_, fun _ => hmem⟩
    obtain ⟨k, a, -, -, -, -, -, ha, -⟩ := h
    cases ha
  | cons a log ih =>
    by_cases hleft : record ∈ unconfirmed fails records a.answer
    · have hnodup : (unconfirmed fails records a.answer).Nodup := nodup.sublist (unconfirmed_sublist _ _ _)
      have hlater := ih hnodup hleft
      constructor
      · intro hremaining hconfirmed
        exact hlater.mp hremaining (hconfirmed.of_cons nodup hleft)
      · intro hunconfirmed
        exact hlater.mpr fun hconfirmed => hunconfirmed hconfirmed.cons
    · obtain ⟨i, hi⟩ := List.mem_iff_getElem?.mp hmem
      obtain ⟨response, entries, entry, hanswer, htold, hentry, hfails⟩ :=
        confirmed_of_not_mem_unconfirmed hi hleft
      constructor
      · intro hremaining
        have hsub : (remaining fails (unconfirmed fails records a.answer) log).Sublist
            (unconfirmed fails records a.answer) := remaining_sublist
        exact absurd (hsub.subset hremaining) hleft
      · intro hunconfirmed
        exact absurd ⟨0, a, records, i, response, entries, entry, rfl, rfl, hi, hanswer, htold, hentry, hfails⟩
          hunconfirmed

end Logs

/-- Attempts that are spent: as many requests as were allowed, each with what those before it left, and
something is left in the end. -/
structure Spent (fails : Payload → Bool) (stream : Text) (budget : Nat) (records : List Record)
    (log : List Attempt) : Prop where
  spent : log.length = budget
  follows : Follows fails stream records log
  some : remaining fails records log ≠ []

/-- A delivery is given up only when the attempts are spent, and the report tells the positions of what is
left. -/
theorem spent_of_course {fails : Payload → Bool} (outcomes : Payload.GoesByOutcome fails)
    {naming : Text → Text} {interval : Seconds} {destination : Text} {left made : Nat}
    {pending : List Record} {t : List Exchange} {r : Except Failure Nat} {report : DeliveryReport}
    (h : Retry.Course (Writer.putRecords naming) interval destination left made pending t r)
    (nonempty : pending ≠ []) (exhausted : r = .error (.delivery report)) :
    Spent fails (naming destination) left pending (attempts t) ∧
      report = ⟨destination, (made + left : Nat), (remaining fails pending (attempts t)).map
        fun record => (record.position : Int)⟩ := by
  induction h with
  | exhausted =>
    obtain ⟨⟩ := Failure.delivery.inj (Except.error.inj exhausted)
    exact ⟨⟨rfl, trivial, nonempty⟩, rfl⟩
  | confirmed => cases exhausted
  | broken replied final =>
    obtain ⟨answer, -, -, hreply⟩ := Writer.sent_of_path nonempty replied
    obtain rfl := Except.error.inj exhausted
    exact absurd hreply.symm Writer.reply_ne_delivery
  | cancelled => cases exhausted
  | @again left made pending rest t u reply notice r replied asked later ih =>
    obtain ⟨answer, hlog, -, rfl⟩ := Writer.sent_of_path nonempty replied
    have hrest : unconfirmed fails pending answer = rest := Writer.unconfirmed_of_again? outcomes asked
    obtain ⟨⟨hspent, hfollows, hsome⟩, hreport⟩ := ih (Retry.ne_nil_of_again? asked nonempty) exhausted
    have hattempts : attempts (t ++ ⟨.note notice, ()⟩ :: Retry.pauses interval left ++ u)
        = ⟨⟨naming destination, pending.map Record.entry⟩, answer⟩ :: attempts u := by
      rw [attempts_append, attempts_append, hlog, attempts_of_pausing fun x => isPausing_of_mem_pauses]
      rfl
    rw [hattempts, hreport, Nat.add_assoc, Nat.add_comm 1]
    subst hrest
    exact ⟨⟨congrArg (· + 1) hspent, ⟨nonempty, rfl, hfollows⟩, hsome⟩, rfl⟩

theorem toRecords_ne_delivery {nullKey : Text} {window : List Event} {report : DeliveryReport} :
    toRecords nullKey window ≠ .error (.delivery report) := by
  intro h
  obtain ⟨⟨event, i⟩, -, hevent⟩ := exists_of_mapM_eq_error h
  rcases bind_eq_error_iff.mp hevent with hkey | ⟨key, -, hevent⟩
  · cases hread : event.partitionKey nullKey <;> rw [hread] at hkey <;> cases hkey
  rcases bind_eq_error_iff.mp hevent with hdata | ⟨data, -, hevent⟩
  · cases hread : event.data <;> rw [hread] at hdata <;> cases hdata
  · cases hread : Record.ofFields _ <;> rw [hread] at hevent <;> cases hevent

section Positions
variable {nullKey : Text} {window : List Event} {records : List Record}

theorem pairwise_position_of_toRecords (h : toRecords nullKey window = .ok records) :
    records.Pairwise fun x y => x.position < y.position := by
  apply List.pairwise_iff_getElem.mpr
  intro i j hi hj hij
  rw [position_of_toRecords h (List.getElem?_eq_getElem hi),
    position_of_toRecords h (List.getElem?_eq_getElem hj)]
  exact hij

theorem position_lt_of_toRecords (h : toRecords nullKey window = .ok records) {record : Record}
    (hmem : record ∈ records) : record.position < window.length := by
  obtain ⟨i, hi⟩ := List.mem_iff_getElem?.mp hmem
  rw [position_of_toRecords h hi, ← length_of_toRecords h]
  exact (List.getElem?_eq_some_iff.mp hi).1

end Positions

namespace Sink

/-- A batch that stops at a window which does not convert has that window's failure. -/
theorem unconverted_of_course {sink : Sink} {destination : Text} {events : List Event} {n : Nat}
    {halt : Option Halt} {t : List Exchange} {failure : Failure}
    (h : Course sink destination events n halt t) (ended : halt = some (.conversion failure)) :
    toRecords sink.nullKey ((events.drop (windowSize * n)).take windowSize) = .error failure := by
  induction h with
  | complete | unpublished | refused => cases ended
  | unconverted nonempty converted =>
    obtain rfl := Halt.conversion.inj (Option.some.inj ended)
    exact converted
  | delivered nonempty converted published later ih =>
    rw [Nat.mul_succ, Nat.add_comm, ← List.drop_drop]
    exact ih ended

/-- A window that is given up comes after windows that are delivered, and its requests after theirs. -/
theorem unpublished_of_course {sink : Sink} {destination : Text} {events : List Event} {n : Nat}
    {halt : Option Halt} {t : List Exchange} {failure : Failure}
    (h : Course sink destination events n halt t) (ended : halt = some (.publication failure)) :
    ∃ records t₁ t₂, toRecords sink.nullKey ((events.drop (windowSize * n)).take windowSize) = .ok records ∧
      records ≠ [] ∧ Path (sink.publishWindow destination records).run t₂ (.error failure) ∧
      attempts t = attempts t₁ ++ attempts t₂ ∧
      ∀ a ∈ attempts t₁, ∃ v < n, OfWindow sink destination events v a := by
  induction h with
  | complete | unconverted | refused => cases ended
  | @unpublished events records t failure nonempty converted published =>
    obtain rfl := Halt.publication.inj (Option.some.inj ended)
    exact ⟨records, [], t, converted, ne_nil_of_converted nonempty converted, published, rfl, by simp [attempts]⟩
  | @delivered events records t u k n halt nonempty converted published later ih =>
    obtain ⟨last, t₁, t₂, hlast, hne, hpublished, hattempts, hearlier⟩ := ih ended
    refine ⟨last, t ++ t₁, t₂, ?_, hne, hpublished, ?_, ?_⟩
    · rwa [Nat.mul_succ, Nat.add_comm, ← List.drop_drop]
    · rw [attempts_published, hattempts, attempts_append, List.append_assoc]
    · intro a ha
      rw [attempts_append] at ha
      rcases List.mem_append.mp ha with ha | ha
      · exact ⟨0, Nat.succ_pos n, ofWindow_of_published nonempty converted published ha⟩
      · obtain ⟨v, hv, hwindow⟩ := hearlier a ha
        exact ⟨v + 1, Nat.succ_lt_succ hv, hwindow.succ.2⟩

end Sink

end EventDelivery

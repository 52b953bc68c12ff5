import EventDelivery.Writer
import EventDelivery.Retry
import EventDelivery.Proofs.Except
import EventDelivery.Proofs.Wording

/-! What an answer to a request leaves unconfirmed of its records. A response speaks of each record when it
holds as many entries as the request; any other answer speaks of none. -/

namespace EventDelivery
set_option autoImplicit false

theorem length_toList_loop (content : ByteArray) (i : Nat) (bs : List UInt8) :
    (ByteArray.toList.loop content i bs).length = bs.length + (content.size - i) := by
  fun_induction ByteArray.toList.loop content i bs with
  | case1 i bs h ih =>
    rw [ih, List.length_cons]
    omega
  | case2 i bs h =>
    rw [List.length_reverse]
    omega

namespace Payload

/-- Whether an entry of a response has an error code that counts as true. -/
def hasErrorCode (entry : Payload) : Bool :=
  (entry.field? "ErrorCode").any fun code => !code.isFalsy

/-- Whether an entry of a response reports a failure: its error code counts as true, and is not displayed as
nothing. -/
def reportsFailure (entry : Payload) : Bool :=
  (entry.field? "ErrorCode").any fun code => !code.isFalsy && !code.isBare

theorem items?_of_length? {p : Payload} {n : Nat} (h : p.length? = some n) :
    ∃ items, p.items? = some items ∧ items.length = n := by
  cases p with
  | text t => exact ⟨_, rfl, by simpa [length?] using h⟩
  | bytes kind content =>
    refine ⟨_, rfl, ?_⟩
    rw [List.length_map, ByteArray.toList, length_toList_loop]
    simpa [length?] using h
  | sequence kind items => exact ⟨_, rfl, by simpa [length?] using h⟩
  | range start stop step =>
    simp only [length?] at h
    split at h
    · exact ⟨_, rfl, by simpa [rangeItems] using h⟩
    · cases h
  | set frozen items => exact ⟨_, rfl, by simpa [length?] using h⟩
  | mapping readOnly entries => exact ⟨_, rfl, by simpa [length?] using h⟩
  | cyclicList => exact ⟨_, rfl, by simpa [length?] using h⟩
  | cyclicMapping => exact ⟨_, rfl, by simpa [length?] using h⟩
  | null | bool | int | float | decimal | moment | date | uuid | complex | model | stranger =>
    simp [length?] at h

/-- The entries of a response, if there are so many of them. -/
def told? (response : Payload) (n : Nat) : Option (List Payload) :=
  match Writer.responseField response "Records" (.sequence .list []) with
  | .ok returned => if returned.length? = some n then returned.items? else none
  | .error _ => none

theorem length_of_told? {response : Payload} {n : Nat} {entries : List Payload}
    (h : response.told? n = some entries) : entries.length = n := by
  unfold told? at h
  split at h
  · split at h
    · rename_i hn
      obtain ⟨items, hitems, hlength⟩ := items?_of_length? hn
      obtain rfl := Option.some.inj (hitems.symm.trans h)
      exact hlength
    · cases h
  · cases h

end Payload

/-- The records of a request that its answer leaves unconfirmed: those whose entry fails, and all of them
when the answer speaks of none. -/
def unconfirmed (fails : Payload → Bool) (records : List Record)
    (answer : Except RequestFailure Payload) : List Record :=
  match answer with
  | .error _ => records
  | .ok response =>
    match response.told? records.length with
    | none => records
    | some entries => ((records.zip entries).filter fun pair => fails pair.2).map (·.1)

theorem unconfirmed_sublist (fails : Payload → Bool) (records : List Record)
    (answer : Except RequestFailure Payload) : (unconfirmed fails records answer).Sublist records := by
  unfold unconfirmed
  split
  · exact .refl _
  · split
    · exact .refl _
    · rename_i entries ht
      have hlength := Payload.length_of_told? ht
      have hkept : (((records.zip entries).filter fun pair => fails pair.2).map (·.1)).Sublist
          ((records.zip entries).map (·.1)) := List.filter_sublist.map _
      rwa [List.map_fst_zip (Nat.le_of_eq hlength.symm)] at hkept

theorem confirmed_of_not_mem_unconfirmed {fails : Payload → Bool} {records : List Record}
    {answer : Except RequestFailure Payload} {i : Nat} {record : Record} (hi : records[i]? = some record)
    (h : record ∉ unconfirmed fails records answer) :
    ∃ response entries entry, answer = .ok response ∧ response.told? records.length = some entries ∧
      entries[i]? = some entry ∧ fails entry = false := by
  have hmem : record ∈ records := List.mem_of_getElem? hi
  cases answer with
  | error failure => exact absurd hmem h
  | ok response =>
    cases ht : response.told? records.length with
    | none => simp only [unconfirmed, ht] at h; exact absurd hmem h
    | some entries =>
      have hlt : i < entries.length := by
        rw [Payload.length_of_told? ht]
        exact (List.getElem?_eq_some_iff.mp hi).1
      refine ⟨response, entries, entries[i], rfl, ht, List.getElem?_eq_getElem hlt, ?_⟩
      by_contra hfails
      apply h
      simp only [unconfirmed, ht]
      apply List.mem_map.mpr
      refine ⟨(record, entries[i]), List.mem_filter.mpr ⟨?_, by simpa using hfails⟩, rfl⟩
      apply List.mem_iff_getElem?.mpr
      exact ⟨i, List.getElem?_zip_eq_some.mpr ⟨hi, List.getElem?_eq_getElem hlt⟩⟩

theorem not_mem_unconfirmed {fails : Payload → Bool} {records : List Record} {response entry : Payload}
    {entries : List Payload} {i : Nat} {record : Record} (nodup : records.Nodup)
    (told : response.told? records.length = some entries) (hi : records[i]? = some record)
    (hentry : entries[i]? = some entry) (hfails : fails entry = false) :
    record ∉ unconfirmed fails records (.ok response) := by
  intro hmem
  simp only [unconfirmed, told] at hmem
  obtain ⟨⟨other, failed⟩, hpair, rfl⟩ := List.mem_map.mp hmem
  obtain ⟨hzip, hfailed⟩ := List.mem_filter.mp hpair
  obtain ⟨j, hj⟩ := List.mem_iff_getElem?.mp hzip
  obtain ⟨hother, hentryj⟩ := List.getElem?_zip_eq_some.mp hj
  obtain ⟨hlt, -⟩ := List.getElem?_eq_some_iff.mp hi
  obtain rfl := (List.getElem?_inj hlt nodup).mp (hi.trans hother.symm)
  obtain rfl := Option.some.inj (hentry.symm.trans hentryj)
  rw [hfails] at hfailed
  cases hfailed

namespace Payload

theorem wordsIfTruthy_eq_ok {code words : Payload} (h : code.wordsIfTruthy = .ok words) :
    (code.isFalsy = true ∧ words = .null) ∨
      (code.isFalsy = false ∧ ∃ t, code.display = .ok t ∧ words = .text t) := by
  unfold wordsIfTruthy at h
  split at h
  · rename_i hfalsy
    exact .inl ⟨hfalsy, (Except.ok.inj h).symm⟩
  · rename_i htruthy
    split at h
    · rename_i t ht
      exact .inr ⟨by simpa using htruthy, t, ht, (Except.ok.inj h).symm⟩
    · cases h

theorem isBare_iff_display_eq_nil {p : Payload} (truthy : p.isFalsy = false) :
    p.isBare = true ↔ p.display = .ok [] := by
  constructor
  · intro h
    unfold isBare at h
    split at h
    · rfl
    · rfl
    · cases h
  · exact fun h => isBare_of_display_eq_nil h truthy

end Payload

namespace Outcome

theorem errorCode_ofFields {number shard code message : Payload} {outcome : Outcome}
    (h : ofFields [("sequence_number", number), ("shard_id", shard), ("error_code", code),
      ("error_message", message)] = .ok outcome) : Field.optionalText code = .ok outcome.errorCode := by
  simp only [ofFields] at h
  split at h
  · rename_i hcode _
    obtain rfl := Except.ok.inj h
    simpa [Field.defaulted, Field.given?] using hcode
  · cases h

/-- A record counts as failed exactly when its entry reports a failure. -/
theorem succeeded_ofEntry {entry : Payload} {outcome : Outcome}
    (h : ofEntry entry = .ok outcome) : outcome.succeeded = !entry.reportsFailure := by
  simp only [ofEntry, bind_eq_ok_iff, mapError_eq_ok_iff] at h
  obtain ⟨code, hcode, -, -, number, -, shard, -, told, htold, message, -, hfields⟩ := h
  have hentry : entry.field? "ErrorCode" = some code := by
    split at hcode
    · rename_i payload hpayload
      rw [hpayload, Except.ok.inj hcode]
    · cases hcode
  have hread := errorCode_ofFields hfields
  rcases Payload.wordsIfTruthy_eq_ok htold with ⟨hfalsy, rfl⟩ | ⟨htruthy, t, ht, rfl⟩
  · have hnone : outcome.errorCode = none := (Except.ok.inj hread).symm
    simp [succeeded, hnone, Payload.reportsFailure, hentry, hfalsy]
  · have hsome : outcome.errorCode = some t := (Except.ok.inj hread).symm
    have hbare := Payload.isBare_iff_display_eq_nil htruthy
    rw [ht, Except.ok.injEq] at hbare
    have hempty : t.isEmpty = code.isBare := by rw [Bool.eq_iff_iff, hbare, List.isEmpty_iff]
    simp [succeeded, hsome, Payload.reportsFailure, hentry, htruthy, hempty]

end Outcome

namespace Payload

/-- Whether an entry of a response does not tell the success of its record: it has no outcome, or not that
of a record that succeeded. -/
def tellsFailure (entry : Payload) : Bool :=
  match Outcome.ofEntry entry with
  | .ok outcome => !outcome.succeeded
  | .error _ => true

/-- A test for failed entries that goes by their outcomes, where they have one. -/
def GoesByOutcome (fails : Payload → Bool) : Prop :=
  ∀ entry outcome, Outcome.ofEntry entry = .ok outcome → fails entry = !outcome.succeeded

theorem goesByOutcome_reportsFailure : GoesByOutcome reportsFailure := by
  intro entry outcome h
  rw [Outcome.succeeded_ofEntry h, Bool.not_not]

theorem goesByOutcome_tellsFailure : GoesByOutcome tellsFailure := by
  intro entry outcome h
  rw [tellsFailure, h]

end Payload

namespace Failure

def isOfReading : Failure → Bool
  | misfit _ | rendering _ | invalid _ => true
  | _ => false

end Failure

theorem Payload.isOfReading_of_wordsIfTruthy {payload : Payload} {failure : Failure}
    (h : payload.wordsIfTruthy = .error failure) : failure.isOfReading ∧ failure.isReported = false := by
  unfold wordsIfTruthy at h
  split at h
  · cases h
  · split at h
    · cases h
    · obtain rfl := Except.error.inj h
      exact ⟨rfl, rfl⟩

theorem Outcome.isOfReading_of_ofEntry {entry : Payload} {failure : Failure}
    (h : ofEntry entry = .error failure) : failure.isOfReading ∧ failure.isReported = false := by
  simp only [ofEntry, bind_eq_error_iff] at h
  rcases h with h | ⟨code, -, h | ⟨message, -, h | ⟨number, -, h | ⟨shard, -, h⟩⟩⟩⟩
  -- each of the four fields fails only where there are none
  iterate 4
    · split at h
      · cases h
      · obtain rfl := Except.error.inj h
        exact ⟨rfl, rfl⟩
  rcases h with h | ⟨code, -, h | ⟨message, -, h⟩⟩
  · exact Payload.isOfReading_of_wordsIfTruthy h
  · exact Payload.isOfReading_of_wordsIfTruthy h
  · cases hread : ofFields _ with
    | ok outcome =>
      rw [hread] at h
      cases h
    | error issues =>
      rw [hread] at h
      obtain rfl := Except.error.inj h
      exact ⟨rfl, rfl⟩

namespace Writer

/-- The results that an answer to a request gives, or the failure that it means. -/
def reply (stream : Text) (records : List Record) (answer : Except RequestFailure Payload) :
    Except Failure (List Result) := do
  let response ← answer.mapError (failureOf stream)
  let _ ← responseField response "FailedRecordCount" (.int 0)
  resultsOf records response

/-- Results exist where the response speaks of every record, and pair each with the outcome of its entry. -/
theorem exists_told_of_resultsOf {records : List Record} {response : Payload} {results : List Result}
    (h : resultsOf records response = .ok results) :
    ∃ entries, response.told? records.length = some entries ∧
      List.Forall₂ (fun pair result => pair.1 = result.record ∧ Outcome.ofEntry pair.2 = .ok result.outcome)
        (records.zip entries) results := by
  obtain ⟨returned, hreturned, h⟩ := bind_eq_ok_iff.mp h
  split at h
  · cases h
  · rename_i n hn
    split at h
    · cases h
    · rename_i heq
      obtain rfl := Decidable.not_not.mp heq
      obtain ⟨items, hitems, hlength⟩ := Payload.items?_of_length? hn
      refine ⟨items, by simp only [Payload.told?, hreturned, hn, hitems, if_true], ?_⟩
      rw [hitems, Option.getD_some, mapM_eq_ok_iff] at h
      refine h.imp fun pair result hpair => ?_
      obtain ⟨outcome, houtcome, hresult⟩ := bind_eq_ok_iff.mp hpair
      obtain rfl := Except.ok.inj hresult
      exact ⟨rfl, houtcome⟩

theorem isOfReading_of_responseField {response absent : Payload} {name : String} {failure : Failure}
    (h : responseField response name absent = .error failure) :
    failure.isOfReading ∧ failure.isReported = false := by
  unfold responseField at h
  split at h
  · cases h
  · obtain rfl := Except.error.inj h
    exact ⟨rfl, rfl⟩

theorem resultsOf_eq_error {records : List Record} {response : Payload} {failure : Failure}
    (h : resultsOf records response = .error failure) :
    (failure.isOfReading ∧ failure.isReported = false) ∨
      response.told? records.length = none ∧ ∃ n, failure = mismatch n records.length := by
  rcases bind_eq_error_iff.mp h with hfield | ⟨returned, hreturned, hread⟩
  · exact .inl (isOfReading_of_responseField hfield)
  split at hread
  · obtain rfl := Except.error.inj hread
    exact .inl ⟨rfl, rfl⟩
  · rename_i n hn
    split at hread
    · rename_i hne
      obtain rfl := Except.error.inj hread
      exact .inr ⟨by simp [Payload.told?, hreturned, hn, hne], n, rfl⟩
    · obtain ⟨pair, -, hpair⟩ := exists_of_mapM_eq_error hread
      rcases bind_eq_error_iff.mp hpair with hentry | ⟨outcome, -, hok⟩
      · exact .inl (Outcome.isOfReading_of_ofEntry hentry)
      · cases hok

theorem reply_eq_error {stream : Text} {records : List Record} {answer : Except RequestFailure Payload}
    {failure : Failure} (h : reply stream records answer = .error failure) :
    (∃ refusal, answer = .error refusal ∧ failure = failureOf stream refusal) ∨
      ∃ response, answer = .ok response ∧ ((failure.isOfReading ∧ failure.isReported = false) ∨
        response.told? records.length = none ∧ ∃ n, failure = mismatch n records.length) := by
  cases answer with
  | error refusal => exact .inl ⟨refusal, rfl, (Except.error.inj h).symm⟩
  | ok response =>
    have hread : (do
        let _ ← responseField response "FailedRecordCount" (.int 0)
        resultsOf records response) = .error failure := h
    refine .inr ⟨response, rfl, ?_⟩
    rcases bind_eq_error_iff.mp hread with hfield | ⟨count, -, hresults⟩
    · exact .inl (isOfReading_of_responseField hfield)
    · exact resultsOf_eq_error hresults

theorem words_eq_error {payload : Payload} {failure : Failure} (h : payload.words = .error failure) :
    ∃ fault, failure = .rendering (.raised fault) := by
  unfold Payload.words at h
  split at h
  · cases h
  · split at h
    · cases h
    · exact ⟨_, (Except.error.inj h).symm⟩

theorem errorOf_eq_error {response : Payload} {text : Text} {failure : Failure}
    (h : errorOf response text = .error failure) : ∃ fault, failure = .rendering (.raised fault) := by
  unfold errorOf at h
  split at h
  · rcases bind_eq_error_iff.mp h with hcode | ⟨code, -, hrest⟩
    · exact words_eq_error hcode
    · rcases bind_eq_error_iff.mp hrest with hmessage | ⟨message, -, hok⟩
      · exact words_eq_error hmessage
      · cases hok
  · cases h

theorem reply_ne_delivery {stream : Text} {records : List Record} {answer : Except RequestFailure Payload}
    {report : DeliveryReport} : reply stream records answer ≠ .error (.delivery report) := by
  intro h
  rcases reply_eq_error h with ⟨refusal, -, hfailure⟩ | ⟨response, -, ⟨hreading, -⟩ | ⟨-, n, hmismatch⟩⟩
  · cases refusal with
    | service response text =>
      cases herror : errorOf response text with
      | ok told =>
        simp only [failureOf, herror, transport] at hfailure
        cases hfailure
      | error failure =>
        obtain ⟨fault, rfl⟩ := errorOf_eq_error herror
        simp only [failureOf, herror] at hfailure
        cases hfailure
    | connection text => cases hfailure
    | other fault => cases hfailure
  · cases hreading
  · cases hmismatch

/-- What an answer to a request means is a failure of the request, unless it is no part of a report. -/
theorem transport_of_reply {stream : Text} {records : List Record} {answer : Except RequestFailure Payload}
    {failure : Failure} (h : reply stream records answer = .error failure) (reported : failure.isReported) :
    ∃ message code, failure = .transport message code := by
  rcases reply_eq_error h with ⟨refusal, -, rfl⟩ | ⟨response, -, ⟨-, hunreported⟩ | ⟨-, n, rfl⟩⟩
  · cases refusal with
    | service response text =>
      cases herror : errorOf response text with
      | ok told => exact ⟨_, _, by simp only [failureOf, herror, transport]; rfl⟩
      | error failure =>
        obtain ⟨fault, rfl⟩ := errorOf_eq_error herror
        simp only [failureOf, herror] at reported
        cases reported
    | connection text => exact ⟨_, _, rfl⟩
    | other fault => cases reported
  · rw [hunreported] at reported
    cases reported
  · exact ⟨_, _, rfl⟩

section Tests
variable {fails : Payload → Bool} {stream : Text} {records : List Record}
  {answer : Except RequestFailure Payload}

theorem map_record_failed (outcomes : Payload.GoesByOutcome fails) {pairs : List (Record × Payload)}
    {results : List Result} (h : List.Forall₂ (fun pair result =>
      pair.1 = result.record ∧ Outcome.ofEntry pair.2 = .ok result.outcome) pairs results) :
    (Retry.failed results).map Result.record = (pairs.filter fun pair => fails pair.2).map (·.1) := by
  induction h with
  | nil => rfl
  | @cons pair result _ _ hpair _ ih =>
    obtain ⟨hrecord, houtcome⟩ := hpair
    have hfails : fails pair.2 = !result.succeeded := outcomes _ _ houtcome
    cases hsucceeded : result.succeeded <;>
      simp_all [Retry.failed]

theorem unconfirmed_of_reply_ok (outcomes : Payload.GoesByOutcome fails) {results : List Result}
    (h : reply stream records answer = .ok results) :
    unconfirmed fails records answer = (Retry.failed results).map Result.record := by
  obtain ⟨response, hresponse, hread⟩ := bind_eq_ok_iff.mp h
  obtain ⟨-, -, hresults⟩ := bind_eq_ok_iff.mp hread
  obtain rfl := mapError_eq_ok_iff.mp hresponse
  obtain ⟨entries, hentries, hpairs⟩ := exists_told_of_resultsOf hresults
  simp only [unconfirmed, hentries, map_record_failed outcomes hpairs]

theorem unconfirmed_of_reply_transport {message : Text} {code : Option Text}
    (h : reply stream records answer = .error (.transport message code)) :
    unconfirmed fails records answer = records := by
  rcases reply_eq_error h with ⟨refusal, rfl, -⟩ | ⟨response, rfl, ⟨hreading, -⟩ | ⟨hnone, -⟩⟩
  · rfl
  · cases hreading
  · simp only [unconfirmed, hnone]

end Tests

end Writer

end EventDelivery

import EventDelivery.Proofs.Confirmed
import EventDelivery.Proofs.Document
import EventDelivery.Proofs.Budget

/-! One request and what becomes of it. By its answer a request fails as a whole, with the code that the service tells
if it tells one, or pairs each record with what the entry in its place says. -/

namespace EventDelivery
set_option autoImplicit false

namespace Json

section Words
variable {items : List Json} {members : List (String × Json)} {document : Json} {room : Nat}

theorem exists_literals (each : ∀ item ∈ items, ∃ t, item.toPayload.literal = .ok t) :
    ∃ ts, Payload.literals (toPayloads items) = .ok ts := by
  induction items with
  | nil => exact ⟨[], rfl⟩
  | cons item items ih =>
    obtain ⟨t, ht⟩ := each item List.mem_cons_self
    obtain ⟨ts, hts⟩ := ih fun other hother => each other (List.mem_cons_of_mem item hother)
    exact ⟨t :: ts, by simp only [toPayloads, Payload.literals, ht, hts]; rfl⟩

theorem exists_entryLiterals (each : ∀ m ∈ members, ∃ t, m.2.toPayload.literal = .ok t) :
    ∃ ts, Payload.entryLiterals (toEntries members) = .ok ts := by
  induction members with
  | nil => exact ⟨[], rfl⟩
  | cons m members ih =>
    obtain ⟨name, value⟩ := m
    obtain ⟨t, ht⟩ := each (name, value) List.mem_cons_self
    obtain ⟨ts, hts⟩ := ih fun other hother => each other (List.mem_cons_of_mem _ hother)
    exact ⟨_, by simp only [toEntries, Payload.entryLiterals, Payload.literal, ht, hts]; rfl⟩

theorem Fits.exists_literal (fits : document.Fits room) : ∃ t, document.toPayload.literal = .ok t := by
  induction fits with
  | null | float | string | emptyArray | emptyObject => exact ⟨_, rfl⟩
  | bool b => cases b <;> exact ⟨_, rfl⟩
  | int within => exact ⟨_, by simp only [toPayload, Payload.literal, integerText, within, if_true]; rfl⟩
  | array _ ih =>
    obtain ⟨ts, hts⟩ := exists_literals ih
    exact ⟨_, by simp only [toPayload, Payload.literal, hts]; rfl⟩
  | object _ _ ih =>
    obtain ⟨ts, hts⟩ := exists_entryLiterals ih
    exact ⟨_, by simp only [toPayload, Payload.literal, hts]; rfl⟩

theorem Fits.exists_display (fits : document.Fits room) : ∃ t, document.toPayload.display = .ok t := by
  cases document with
  | string s => exact ⟨_, rfl⟩
  | _ => exact fits.exists_literal

theorem isBare_toPayload (document : Json) : document.toPayload.isBare = false := by
  cases document <;> rfl

theorem lookup_toEntries (members : List (String × Json)) (name : String) :
    Payload.lookup (toEntries members) name = (members.lookup name).map toPayload := by
  induction members with
  | nil => rfl
  | cons m members ih =>
    obtain ⟨other, value⟩ := m
    have hkey : (Payload.text (Text.ofString other)).sameKey (.text (Text.ofString name)) = (name == other) := by
      rw [Payload.sameKey, Bool.eq_iff_iff, beq_iff_eq, beq_iff_eq, Text.ofString_inj, eq_comm]
    simp only [Payload.lookup, toEntries, List.find?_cons, hkey, List.lookup_cons]
    cases name == other with
    | true => rfl
    | false => exact ih

theorem Fits.of_lookup {name : String} {value : Json} (fits : Fits room (.object members))
    (h : members.lookup name = some value) : ∃ room', value.Fits room' := by
  obtain ⟨before, after, hsplit, -⟩ := List.lookup_eq_some_iff.mp h
  have hmem : (name, value) ∈ members := by simp [hsplit]
  cases fits with
  | emptyObject => cases hmem
  | object _ each => exact ⟨_, each (name, value) hmem⟩

end Words

end Json

theorem Outcome.ofFields_of_ok {number shard code message : Payload} {outcome : Outcome}
    (hnumber : Field.optionalText number = .ok outcome.sequenceNumber)
    (hshard : Field.optionalText shard = .ok outcome.shard)
    (hcode : Field.optionalText code = .ok outcome.errorCode)
    (hmessage : Field.optionalText message = .ok outcome.errorMessage) :
    ofFields [("sequence_number", number), ("shard_id", shard), ("error_code", code), ("error_message", message)]
      = .ok outcome := by
  simp [ofFields, Field.defaulted, Field.given?, hnumber, hshard, hcode, hmessage]

namespace Payload

def textOf (entry : Payload) (name : String) : Option Text :=
  match entry.field? name with
  | some (.text t) => some t
  | _ => none

def wordsOf (entry : Payload) (name : String) : Option Text :=
  (entry.field? name).bind fun value => if value.isFalsy then none else value.display.toOption

def outcome (entry : Payload) : Outcome :=
  ⟨entry.textOf "SequenceNumber", entry.textOf "ShardId", entry.wordsOf "ErrorCode", entry.wordsOf "ErrorMessage"⟩

/-- An entry as the service writes it: an object of JSON within the limits, in which the sequence number and the shard
are text where they are told. -/
structure IsPlain (entry : Payload) : Prop where
  document : ∃ members room, entry = (Json.object members).toPayload ∧ (Json.object members).Fits room
  named : ∀ name ∈ ["SequenceNumber", "ShardId"], ∀ value, entry.field? name = some value →
    value = .null ∨ ∃ t, value = .text t

section Entries
variable {entry value : Payload}

theorem wordsIfTruthy_of_display {t : Text} (h : value.display = .ok t) :
    value.wordsIfTruthy = .ok (if value.isFalsy then .null else .text t) := by
  rw [wordsIfTruthy, h]
  split <;> rfl

theorem optionalText_wordsIfTruthy {t : Text} (h : value.display = .ok t) :
    Field.optionalText (if value.isFalsy then .null else .text t)
      = .ok (if value.isFalsy then none else value.display.toOption) := by
  rw [h]
  split <;> rfl

theorem IsPlain.exists_field? (plain : entry.IsPlain) (name : String) :
    ∃ value, entry.field? name = some value ∧ (∃ t, value.display = .ok t) ∧ value.isBare = false := by
  obtain ⟨members, room, rfl, fits⟩ := plain.document
  have hentries : (Json.object members).toPayload.entries? = some (Json.toEntries members) := rfl
  rw [field?, hentries, Option.map_some, Json.lookup_toEntries]
  cases hvalue : members.lookup name with
  | none => exact ⟨.null, rfl, ⟨_, rfl⟩, rfl⟩
  | some value =>
    obtain ⟨room', hfits⟩ := Json.Fits.of_lookup fits hvalue
    exact ⟨value.toPayload, rfl, hfits.exists_display, value.isBare_toPayload⟩

theorem IsPlain.optionalText (plain : entry.IsPlain) {name : String} (hname : name ∈ ["SequenceNumber", "ShardId"])
    (hvalue : entry.field? name = some value) : Field.optionalText value = .ok (entry.textOf name) := by
  rw [textOf, hvalue]
  rcases plain.named name hname value hvalue with rfl | ⟨t, rfl⟩ <;> rfl

theorem wordsOf_eq {name : String} (hvalue : entry.field? name = some value) :
    entry.wordsOf name = if value.isFalsy then none else value.display.toOption := by
  rw [wordsOf, hvalue, Option.bind_some]

/-- A plain entry has an outcome, which says that the record failed where the error code counts as true. -/
theorem IsPlain.ofEntry (plain : entry.IsPlain) :
    Outcome.ofEntry entry = .ok entry.outcome ∧ entry.outcome.succeeded = !entry.hasErrorCode := by
  obtain ⟨code, hcode, ⟨tcode, htcode⟩, hbare⟩ := plain.exists_field? "ErrorCode"
  obtain ⟨message, hmessage, ⟨tmessage, htmessage⟩, -⟩ := plain.exists_field? "ErrorMessage"
  obtain ⟨number, hnumber, -⟩ := plain.exists_field? "SequenceNumber"
  obtain ⟨shard, hshard, -⟩ := plain.exists_field? "ShardId"
  have hread : Outcome.ofFields [("sequence_number", number), ("shard_id", shard),
      ("error_code", if code.isFalsy then .null else .text tcode),
      ("error_message", if message.isFalsy then .null else .text tmessage)] = .ok entry.outcome := by
    apply Outcome.ofFields_of_ok
    · exact plain.optionalText (by simp) hnumber
    · exact plain.optionalText (by simp) hshard
    · exact (optionalText_wordsIfTruthy htcode).trans (congrArg Except.ok (wordsOf_eq hcode).symm)
    · exact (optionalText_wordsIfTruthy htmessage).trans (congrArg Except.ok (wordsOf_eq hmessage).symm)
  have houtcome : Outcome.ofEntry entry = .ok entry.outcome := by
    simp only [Outcome.ofEntry, hcode, hmessage, hnumber, hshard]
    exact (bind_of_eq_ok (wordsIfTruthy_of_display htcode)).trans
      ((bind_of_eq_ok (wordsIfTruthy_of_display htmessage)).trans
        (congrArg (Except.mapError Failure.invalid) hread))
  refine ⟨houtcome, ?_⟩
  rw [Outcome.succeeded_ofEntry houtcome, reportsFailure, hasErrorCode, hcode]
  simp [hbare]

end Entries

/-- Mappings that can be changed. -/
def isDict : Payload → Bool
  | mapping false _ | cyclicMapping .. => true
  | _ => false

theorem exists_changeable? {payload : Payload} (h : payload.isDict) :
    ∃ entries, payload.changeable? = some entries ∧ payload.entries? = some entries := by
  cases payload with
  | mapping readOnly entries =>
    cases readOnly with
    | false => exact ⟨entries, rfl, rfl⟩
    | true => cases h
  | cyclicMapping entries key => exact ⟨_, rfl, rfl⟩
  | _ => cases h

theorem changeable?_of_not_isDict {payload : Payload} (h : payload.isDict = false) : payload.changeable? = none := by
  cases payload with
  | mapping readOnly entries =>
    cases readOnly with
    | false => cases h
    | true => rfl
  | cyclicMapping => cases h
  | _ => rfl

/-- What the answer of a service holds under `Error`, where both are such mappings. -/
def error? (response : Payload) : Option Payload :=
  if response.isDict then (response.field? "Error").filter isDict else none

def told (error : Payload) (name : String) : Option Text :=
  (error.field? name).bind fun value => if value.isNull then none else value.display.toOption

/-- The code and the message of an error can be written. -/
def Speaks (error : Payload) : Prop :=
  ∀ name ∈ ["Code", "Message"], ∀ value, error.field? name = some value → ∃ t, value.display = .ok t

end Payload

theorem deeds_of_requests {h : List Exchange}
    (only : ∀ x ∈ h, x.call.isNote = false → ∃ request, x.call = .send request) :
    deeds h = (requests h).map Call.send := by
  induction h with
  | nil => rfl
  | cons x h ih =>
    have hrest := ih fun y hy => only y (List.mem_cons_of_mem x hy)
    obtain ⟨call, answer⟩ := x
    cases call with
    | note notice => exact hrest
    | send request => exact congrArg (Call.send request :: ·) hrest
    | _ =>
      obtain ⟨request, hsend⟩ := only _ List.mem_cons_self rfl
      cases hsend

namespace Writer

theorem words_of_display {value : Payload} {t : Text} (h : value.display = .ok t) :
    value.words = .ok (if value.isNull then none else value.display.toOption) := by
  unfold Payload.words
  split
  · rfl
  · rename_i hpresent
    have hnull : value.isNull = false := by
      cases value <;> first | rfl | exact absurd rfl hpresent
    simp only [h, hnull, Bool.false_eq_true, if_false, Except.toOption]

theorem errorOf_eq {response : Payload} {text : Text}
    (speaks : ∀ error, response.error? = some error → error.Speaks) :
    errorOf response text = .ok (response.error?.bind (·.told "Code"),
      response.error?.elim (some text) (·.told "Message")) := by
  unfold errorOf
  unfold Payload.error? at speaks ⊢
  cases hresponse : response.isDict with
  | false =>
    rw [Payload.changeable?_of_not_isDict hresponse]
    rfl
  | true =>
    obtain ⟨entries, hchangeable, hentries⟩ := Payload.exists_changeable? hresponse
    simp only [hresponse, if_true, Payload.field?, hentries, Option.map_some] at speaks ⊢
    rw [hchangeable, Option.bind_some]
    cases hfield : Payload.lookup entries "Error" with
    | none => rfl
    | some error =>
      rw [hfield] at speaks
      cases herror : error.isDict with
      | false =>
        have hnone : (some error).filter Payload.isDict = none := by simp [Option.filter, herror]
        have hstop : (some error >>= Payload.changeable?) = none := Payload.changeable?_of_not_isDict herror
        rw [Option.getD_some, hnone, hstop]
        rfl
      | true =>
        obtain ⟨fields, hchangeable', hfields⟩ := Payload.exists_changeable? herror
        have hsome : (some error).filter Payload.isDict = some error := by simp [Option.filter, herror]
        have hfound : (some error >>= Payload.changeable?) = some fields := hchangeable'
        rw [Option.getD_some, hsome] at speaks ⊢
        have htold (name : String) : error.field? name = some ((Payload.lookup fields name).getD .null) := by
          rw [Payload.field?, hfields, Option.map_some]
        obtain ⟨code, hcode⟩ := speaks error rfl "Code" (by simp) _ (htold "Code")
        obtain ⟨message, hmessage⟩ := speaks error rfl "Message" (by simp) _ (htold "Message")
        rw [hfound]
        simp only [Option.bind_some, Option.elim_some, Payload.told, htold]
        exact (bind_of_eq_ok (words_of_display hcode)).trans (bind_of_eq_ok (words_of_display hmessage))

/-- What comes of a request by the answer to it. -/
structure Answered (stream : Text) (records : List Record) (answer : Except RequestFailure Payload)
    (r : Except Failure (List Result)) : Prop where
  /-- An error of the service fails the request as a whole, with the code that it tells if it tells one. -/
  service : ∀ response text, answer = .error (.service response text) →
    (∀ error, response.error? = some error → error.Speaks) →
    r = .error (transport stream (response.error?.bind (·.told "Code"))
      (response.error?.elim (some text) (·.told "Message")))
  connection : ∀ text, answer = .error (.connection text) → r = .error (transport stream none (some text))
  /-- Every other failure of the client leaves as it is. -/
  other : ∀ fault, answer = .error (.other fault) → r = .error (.outside fault)
  /-- A response that speaks of more or of fewer records fails the request without a code. -/
  mismatched : ∀ response returned n, answer = .ok response →
    responseField response "Records" (.sequence .list []) = .ok returned → returned.length? = some n →
    n ≠ records.length → r = .error (mismatch n records.length)
  /-- Any other response pairs each record with what the entry in its place says. -/
  paired : ∀ response entries, answer = .ok response → response.told? records.length = some entries →
    (∀ entry ∈ entries, entry.IsPlain) →
    ∃ results : List Result, r = .ok results ∧ results.length = records.length ∧
      ∀ (i : Nat) (record : Record) (entry : Payload), records[i]? = some record → entries[i]? = some entry →
        ∃ result : Result, results[i]? = some result ∧ result.record = record ∧
          result.outcome = entry.outcome ∧ result.succeeded = !entry.hasErrorCode

section Answers
variable {stream : Text} {records : List Record} {response returned : Payload} {entries : List Payload}

theorem reply_of_responseField (h : responseField response "Records" (.sequence .list []) = .ok returned) :
    reply stream records (.ok response) = resultsOf records response := by
  obtain ⟨count, hcount⟩ := @exists_responseField response "Records" "FailedRecordCount" _ (.int 0) _ h
  exact bind_of_eq_ok hcount

theorem resultsOf_of_isPlain (told : response.told? records.length = some entries)
    (plain : ∀ entry ∈ entries, entry.IsPlain) :
    resultsOf records response
      = .ok ((records.zip entries).map fun (record, entry) => ⟨record, entry.outcome⟩) := by
  rw [resultsOf_of_told told, mapM_eq_ok_iff, List.forall₂_map_right_iff, List.forall₂_same]
  rintro ⟨record, entry⟩ hpair
  exact bind_of_eq_ok (plain entry (List.of_mem_zip hpair).2).ofEntry.1

theorem answered_reply (answer : Except RequestFailure Payload) :
    Answered stream records answer (reply stream records answer) where
  service := by
    rintro response text rfl speaks
    have hfailure : reply stream records (.error (.service response text))
        = .error (failureOf stream (.service response text)) := rfl
    rw [hfailure, failureOf, errorOf_eq speaks]
  connection := by
    rintro text rfl
    rfl
  other := by
    rintro fault rfl
    rfl
  mismatched := by
    rintro response returned n rfl hreturned hlength hne
    rw [reply_of_responseField hreturned, resultsOf, bind_of_eq_ok hreturned]
    simp only [hlength, ne_eq, hne, not_false_eq_true, if_true]
    rfl
  paired := by
    rintro response entries rfl told plain
    obtain ⟨returned, hreturned, -, -⟩ := Payload.told?_eq_some told
    refine ⟨_, (reply_of_responseField hreturned).trans (resultsOf_of_isPlain told plain), ?_, ?_⟩
    · simp [Payload.length_of_told? told]
    · intro i record entry hrecord hentry
      refine ⟨⟨record, entry.outcome⟩, ?_, rfl, rfl, (plain entry (List.mem_of_getElem? hentry)).ofEntry.2⟩
      have hpair : (records.zip entries)[i]? = some (record, entry) :=
        List.getElem?_zip_eq_some.mpr ⟨hrecord, hentry⟩
      rw [List.getElem?_map, hpair, Option.map_some]

end Answers

/-- One request is made of the records, in their order and to the stream of their destination, and its answer
decides what comes of it. -/
theorem putRecords_answered {σ : Type} (world : World σ) (s : σ) (naming : Text → Text) (destination : Text)
    {records : List Record} (nonempty : records ≠ []) :
    ∃ answer,
      attempts (Interaction.history world (putRecords naming destination records).run s)
        = [⟨⟨naming destination, records.map Record.entry⟩, answer⟩] ∧
      deeds (Interaction.history world (putRecords naming destination records).run s)
        = [.send ⟨naming destination, records.map Record.entry⟩] ∧
      Answered (naming destination) records answer
        (Interaction.run world (putRecords naming destination records).run s).1 := by
  have hpath := Interaction.path_run world (putRecords naming destination records).run s
  obtain ⟨answer, hattempts, -, hreply⟩ := sent_of_path nonempty hpath
  have hcalls : (putRecords naming destination records).run.Calls
      (fun call => call.isNote = false → ∃ request, call = .send request) :=
    calls_putRecords (fun request _ => ⟨request, rfl⟩) (fun stream count hnote => by cases hnote) _ _ _
  refine ⟨answer, hattempts, ?_, ?_⟩
  · rw [deeds_of_requests (hcalls.of_path hpath), requests, hattempts]
    rfl
  · rw [hreply]
    exact answered_reply answer

def discordantEntries : List Payload :=
  [Json.toPayload (.object [("SequenceNumber", .string "1"), ("ShardId", .string "shard")]),
    Json.toPayload (.object [("ErrorCode", .string "Throttled"), ("SequenceNumber", .null)])]

/-- A response with these entries that counts no failure. -/
def discordant : Payload :=
  .mapping false [(.text (Text.ofString "FailedRecordCount"), .int 0),
    (.text (Text.ofString "Records"), .sequence .list discordantEntries)]

theorem isPlain_discordantEntries : ∀ entry ∈ discordantEntries, entry.IsPlain := by
  intro entry hentry
  simp only [discordantEntries, List.mem_cons, List.not_mem_nil, or_false] at hentry
  rcases hentry with rfl | rfl
  · refine ⟨⟨_, 1, rfl, .object (by decide) ?_⟩, ?_⟩
    · simp only [List.forall_mem_cons]
      exact ⟨.string _, .string _, nofun⟩
    · intro name hname value hvalue
      simp only [List.mem_cons, List.not_mem_nil, or_false] at hname
      rcases hname with rfl | rfl <;> exact .inr ⟨_, (Option.some.inj hvalue).symm⟩
  · refine ⟨⟨_, 1, rfl, .object (by decide) ?_⟩, ?_⟩
    · simp only [List.forall_mem_cons]
      exact ⟨.string _, .null, nofun⟩
    · intro name hname value hvalue
      simp only [List.mem_cons, List.not_mem_nil, or_false] at hname
      rcases hname with rfl | rfl <;> exact .inl (Option.some.inj hvalue).symm

/-- Of the twins the second one failed, whatever the response counts. -/
theorem putRecords_discordant :
    Retry.twins ≠ [] ∧ ∃ results,
      (Interaction.run World.playing (putRecords id [] Retry.twins).run [discordant]).1 = .ok results ∧
        results.map Result.succeeded = [true, false] := by
  have hne : Retry.twins ≠ [] := List.cons_ne_nil _ _
  obtain ⟨answer, hattempts, -, hanswered⟩ := putRecords_answered World.playing [discordant] id [] hne
  have hanswer : answer = .ok discordant := (Attempt.mk.inj (List.cons.inj hattempts).1).2.symm
  obtain ⟨results, hrun, hlength, hpaired⟩ := hanswered.paired discordant discordantEntries hanswer rfl
    isPlain_discordantEntries
  obtain ⟨first, hfirst, -, -, hdone⟩ := hpaired 0 _ _ rfl rfl
  obtain ⟨second, hsecond, -, -, hfailed⟩ := hpaired 1 _ _ rfl rfl
  obtain ⟨first', second', rfl⟩ := List.length_eq_two.mp hlength
  obtain rfl := Option.some.inj hfirst
  obtain rfl := Option.some.inj hsecond
  refine ⟨hne, _, hrun, ?_⟩
  rw [List.map_cons, List.map_cons, hdone, hfailed]
  rfl

end Writer

end EventDelivery

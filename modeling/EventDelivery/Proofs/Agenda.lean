import EventDelivery.Proofs.Boundary

/-! What is sent. An agenda holds what the next request carries and what comes after it; the answers move it
on, and the requests of a batch are those of its agenda, one after another, as far as the agenda goes. -/

namespace EventDelivery
open Interaction (Path)
set_option autoImplicit false

/-- The records that the next request carries, how many requests are left for their window, and the records
of the windows after it. -/
structure Agenda where
  pending : List Record
  left : Nat
  later : List (List Record)

namespace Agenda

/-- Before the first of some windows: five requests are left for each. -/
def start : List (List Record) → Agenda
  | [] => ⟨[], 0, []⟩
  | records :: later => ⟨records, 5, later⟩

def rest (pending : List Record) (left : Nat) (later : List (List Record)) : Agenda :=
  if pending = [] then start later else ⟨pending, left, later⟩

def request? (stream : Text) (agenda : Agenda) : Option Request :=
  if agenda.pending = [] ∨ agenda.left = 0 then none
  else some ⟨stream, agenda.pending.map Record.entry⟩

/-- What an answer leaves to be sent: nothing at all, when it is a failure of its own. -/
def after (fails : Payload → Bool) (stream : Text) (agenda : Agenda)
    (answer : Except RequestFailure Payload) : Agenda :=
  match Writer.reply stream agenda.pending answer with
  | .ok _ | .error (.transport _ _) =>
    rest (unconfirmed fails agenda.pending answer) (agenda.left - 1) agenda.later
  | .error _ => start []

/-- The requests of a log are the next ones of the agenda, each in the light of the answers before it. -/
inductive Leads (fails : Payload → Bool) (stream : Text) : Agenda → List Attempt → Agenda → Prop where
  | done (agenda : Agenda) : Leads fails stream agenda [] agenda
  | sent {agenda last : Agenda} {a : Attempt} {log : List Attempt}
      (next : agenda.request? stream = some a.request)
      (more : Leads fails stream (agenda.after fails stream a.answer) log last) :
      Leads fails stream agenda (a :: log) last

theorem Leads.append {fails : Payload → Bool} {stream : Text} {agenda next last : Agenda}
    {log more : List Attempt} (h : Leads fails stream agenda log next)
    (hmore : Leads fails stream next more last) : Leads fails stream agenda (log ++ more) last := by
  induction h with
  | done => exact hmore
  | sent next _ ih => exact .sent next (ih hmore)

/-- Why nothing more is sent: the agenda asks for nothing, a pause is cut short, or a mark is refused. -/
inductive Ends (stream : Text) (h : List Exchange) (r : Except Failure Unit) (last : Agenda) : Prop where
  | spent (nothing : last.request? stream = none)
  | cancelled {interval : Seconds} (cut : (⟨.sleep interval, .error ()⟩ : Exchange) ∈ h)
      (failed : r = .error .cancelled)
  | refused {event : Event} {fault : Fault} (mark : (⟨.mark event, .error fault⟩ : Exchange) ∈ h)
      (failed : r = .error (.outside fault))

theorem Ends.subset {stream : Text} {h k : List Exchange} {r : Except Failure Unit} {last : Agenda}
    (hends : Ends stream h r last) (hsub : h ⊆ k) : Ends stream k r last := by
  cases hends with
  | spent nothing => exact .spent nothing
  | cancelled cut failed => exact .cancelled (hsub cut) failed
  | refused mark failed => exact .refused (hsub mark) failed

theorem request?_start_nil (stream : Text) : (start []).request? stream = none := rfl

section Windows
variable {stream : Text} {pending more : List Record} {left : Nat} {later : List (List Record)}
  {answer : Except RequestFailure Payload}

theorem request?_of_ne_nil (nonempty : pending ≠ []) :
    request? stream ⟨pending, left + 1, later⟩ = some ⟨stream, pending.map Record.entry⟩ := by
  simp [request?, nonempty]

theorem after_of_confirmed {results : List Result}
    (reply : Writer.reply stream pending answer = .ok results) (all : Retry.failed results = []) :
    after Payload.reportsFailure stream ⟨pending, left + 1, later⟩ answer = start later := by
  have hall : unconfirmed Payload.reportsFailure pending answer = [] := by
    rw [Writer.unconfirmed_of_reply_ok Payload.goesByOutcome_reportsFailure reply, all, List.map_nil]
  simp only [after, reply]
  exact if_pos hall

theorem after_of_again? (asked : Retry.again? pending (Writer.reply stream pending answer) = some more)
    (nonempty : pending ≠ []) :
    after Payload.reportsFailure stream ⟨pending, left + 1, later⟩ answer = ⟨more, left, later⟩ := by
  have hmore : unconfirmed Payload.reportsFailure pending answer = more :=
    Writer.unconfirmed_of_again? Payload.goesByOutcome_reportsFailure asked
  have hrest : rest (unconfirmed Payload.reportsFailure pending answer) left later = ⟨more, left, later⟩ := by
    rw [hmore]
    exact if_neg (Retry.ne_nil_of_again? asked nonempty)
  cases hreply : Writer.reply stream pending answer with
  | ok results =>
    simp only [after, hreply]
    exact hrest
  | error failure =>
    rw [hreply] at asked
    cases failure with
    | transport message code =>
      simp only [after, hreply]
      exact hrest
    | _ => cases asked

theorem after_of_broken {failure : Failure}
    (reply : Writer.reply stream pending answer = .error failure)
    (final : Retry.again? pending (.error failure) = none) :
    after Payload.reportsFailure stream ⟨pending, left + 1, later⟩ answer = start [] := by
  unfold after
  split
  · rename_i results hreply
    rw [reply] at hreply
    cases hreply
  · rename_i message code hreply
    rw [reply] at hreply
    obtain rfl := Except.error.inj hreply
    cases final
  · rfl

/-- What the requests of a window lead to when it is published: the windows after it, if all is confirmed. -/
def Reaches (stream : Text) (later : List (List Record)) (t : List Exchange) (last : Agenda) :
    Except Failure Nat → Prop
  | .ok _ => last = start later
  | .error failure => last.request? stream = none ∨
      ∃ interval, (⟨.sleep interval, .error ()⟩ : Exchange) ∈ t ∧ failure = .cancelled

theorem leads_of_publishing {naming : Text → Text} {interval : Seconds} {destination : Text}
    {left made : Nat} {pending : List Record} {t : List Exchange} {r : Except Failure Nat}
    (h : Retry.Course (Writer.putRecords naming) interval destination left made pending t r)
    (nonempty : pending ≠ []) (later : List (List Record)) :
    ∃ last, Leads Payload.reportsFailure (naming destination) ⟨pending, left, later⟩ (attempts t) last ∧
      Reaches (naming destination) later t last r := by
  induction h with
  | exhausted => exact ⟨_, .done _, .inl (if_pos (.inr rfl))⟩
  | confirmed replied all =>
    obtain ⟨answer, hlog, -, hreply⟩ := Writer.sent_of_path nonempty replied
    rw [hlog]
    refine ⟨_, .sent (request?_of_ne_nil nonempty) (.done _), ?_⟩
    exact after_of_confirmed hreply.symm all
  | broken replied final =>
    obtain ⟨answer, hlog, -, hreply⟩ := Writer.sent_of_path nonempty replied
    rw [hlog]
    refine ⟨_, .sent (request?_of_ne_nil nonempty) (.done _), .inl ?_⟩
    rw [after_of_broken hreply.symm final]
    exact request?_start_nil _
  | @cancelled left made pending more t reply notice hmore replied asked =>
    obtain ⟨answer, hlog, -, rfl⟩ := Writer.sent_of_path nonempty replied
    rw [attempts_append, hlog]
    refine ⟨_, .sent (request?_of_ne_nil nonempty) (.done _), .inr ⟨interval, ?_, rfl⟩⟩
    exact List.mem_append_right t (List.mem_cons_of_mem _ List.mem_cons_self)
  | @again left made pending more t u reply notice r replied asked course ih =>
    obtain ⟨answer, hlog, -, rfl⟩ := Writer.sent_of_path nonempty replied
    obtain ⟨last, hleads, hreaches⟩ := ih (Retry.ne_nil_of_again? asked nonempty)
    refine ⟨last, ?_, ?_⟩
    · rw [attempts_append, attempts_append, hlog, attempts_of_pausing fun x => isPausing_of_mem_pauses]
      refine .sent (request?_of_ne_nil nonempty) ?_
      rw [after_of_again? asked nonempty]
      exact hleads
    · cases r with
      | ok k => exact hreaches
      | error failure =>
        rcases hreaches with hspent | ⟨interval, hcut, hfailed⟩
        · exact .inl hspent
        · exact .inr ⟨interval, List.mem_append_right _ hcut, hfailed⟩

end Windows

section Batches
variable {sink : Sink} {destination : Text} {t : List Exchange}

theorem leads_of_course {events : List Event} {n : Nat} {halt : Option Sink.Halt}
    {batches : List (List Record)} {r : Except Failure Unit}
    (h : Sink.Course sink destination events n halt t)
    (failed : ∀ ended, halt = some ended → r = .error ended.failure)
    (converted : List.Forall₂ (fun window records => toRecords sink.nullKey window = .ok records)
      (windows windowSize windowSize_pos events) batches) :
    ∃ last, Leads Payload.reportsFailure (sink.naming destination) (start batches) (attempts t) last ∧
      Ends (sink.naming destination) t r last := by
  induction h generalizing batches with
  | complete =>
    rw [windows_nil, List.forall₂_nil_left_iff] at converted
    subst converted
    exact ⟨_, .done _, .spent (request?_start_nil _)⟩
  | unconverted nonempty first =>
    rw [windows_of_ne_nil _ _ nonempty, List.forall₂_cons_left_iff] at converted
    obtain ⟨records, later, hrecords, -, rfl⟩ := converted
    rw [first] at hrecords
    cases hrecords
  | @unpublished events records t failure nonempty first published =>
    rw [windows_of_ne_nil _ _ nonempty, List.forall₂_cons_left_iff] at converted
    obtain ⟨records', later, hrecords, -, rfl⟩ := converted
    obtain rfl := Except.ok.inj (first.symm.trans hrecords)
    have hne := Sink.ne_nil_of_converted nonempty first
    obtain ⟨last, hleads, hreaches⟩ :=
      leads_of_publishing (Sink.course_of_publishWindow hne published) hne later
    refine ⟨last, hleads, ?_⟩
    rcases hreaches with hspent | ⟨interval, hcut, rfl⟩
    · exact .spent hspent
    · exact .cancelled hcut (failed _ rfl)
  | @refused events xs ys event records t k fault nonempty first published split =>
    rw [windows_of_ne_nil _ _ nonempty, List.forall₂_cons_left_iff] at converted
    obtain ⟨records', later, hrecords, -, rfl⟩ := converted
    obtain rfl := Except.ok.inj (first.symm.trans hrecords)
    have hne := Sink.ne_nil_of_converted nonempty first
    obtain ⟨last, hleads, -⟩ :=
      leads_of_publishing (Sink.course_of_publishWindow hne published) hne later
    have hmark : (⟨.mark event, .error fault⟩ : Exchange) ∈
        t ++ (xs.map Exchange.accepted ++ [⟨.mark event, .error fault⟩]) := by simp
    have hrefused : attempts [⟨.mark event, .error fault⟩] = [] := rfl
    rw [attempts_published, hrefused, List.append_nil]
    exact ⟨last, hleads, .refused hmark (failed _ rfl)⟩
  | @delivered events records t u k n halt nonempty first published later ih =>
    rw [windows_of_ne_nil _ _ nonempty, List.forall₂_cons_left_iff] at converted
    obtain ⟨records', batches, hrecords, hbatches, rfl⟩ := converted
    obtain rfl := Except.ok.inj (first.symm.trans hrecords)
    have hne := Sink.ne_nil_of_converted nonempty first
    obtain ⟨next, hleads, rfl⟩ :=
      leads_of_publishing (Sink.course_of_publishWindow hne published) hne batches
    obtain ⟨last, hlater, hends⟩ := ih failed hbatches
    rw [attempts_published]
    refine ⟨last, hleads.append hlater, hends.subset ?_⟩
    exact fun x hx => List.mem_append_right _ (List.mem_append_right _ hx)

end Batches

/-- The agendas of a log, one before each request and one after the last. -/
def trail (fails : Payload → Bool) (stream : Text) : Agenda → List Attempt → List Agenda
  | agenda, [] => [agenda]
  | agenda, a :: log => agenda :: trail fails stream (agenda.after fails stream a.answer) log

/-- Once its entry does not fail, no record is sent again for its window. -/
def NeverRepeats (fails : Payload → Bool) (stream : Text) (first : Agenda) (log : List Attempt) : Prop :=
  ∀ (k l i : Nat) (agenda next : Agenda) (a : Attempt) (response : Payload) (entries : List Payload)
    (record : Record) (entry : Payload),
    (trail fails stream first log)[k]? = some agenda → (trail fails stream first log)[l]? = some next → k < l →
    next.later.length = agenda.later.length → log[k]? = some a → a.answer = .ok response →
    response.told? agenda.pending.length = some entries → agenda.pending[i]? = some record →
    entries[i]? = some entry → fails entry = false → record ∉ next.pending

section Trails
variable {fails : Payload → Bool} {stream : Text} {agenda next : Agenda}
  {answer : Except RequestFailure Payload} {log : List Attempt}

theorem later_start (batches : List (List Record)) : (start batches).later = batches.tail := by
  cases batches <;> rfl

theorem length_later_after (fails : Payload → Bool) (stream : Text) (agenda : Agenda)
    (answer : Except RequestFailure Payload) :
    (agenda.after fails stream answer).later.length ≤ agenda.later.length := by
  have hrest : (rest (unconfirmed fails agenda.pending answer) (agenda.left - 1) agenda.later).later.length
      ≤ agenda.later.length := by
    unfold rest
    split
    · rw [later_start, List.length_tail]
      exact Nat.sub_le _ _
    · exact Nat.le_refl _
  unfold after
  split
  · exact hrest
  · exact hrest
  · exact Nat.zero_le _

theorem pending_rest_sublist {records : List Record} {left : Nat} {later : List (List Record)}
    (same : (rest records left later).later.length = later.length) :
    (rest records left later).pending.Sublist records := by
  unfold rest at same ⊢
  split at same
  · rename_i hall
    rw [later_start, List.length_tail] at same
    have hnone : later = [] := List.length_eq_zero_iff.mp (by omega)
    rw [if_pos hall, hnone]
    exact List.nil_sublist _
  · rename_i hsome
    rw [if_neg hsome]

theorem pending_after_sublist
    (same : (agenda.after fails stream answer).later.length = agenda.later.length) :
    (agenda.after fails stream answer).pending.Sublist (unconfirmed fails agenda.pending answer) := by
  unfold after at same ⊢
  split at same
  · exact pending_rest_sublist same
  · exact pending_rest_sublist same
  · exact List.nil_sublist _

theorem length_later_of_mem_trail (h : next ∈ trail fails stream agenda log) :
    next.later.length ≤ agenda.later.length := by
  induction log generalizing agenda with
  | nil => exact List.mem_singleton.mp h ▸ Nat.le_refl _
  | cons a log ih =>
    rcases List.mem_cons.mp h with rfl | h
    · exact Nat.le_refl _
    · exact Nat.le_trans (ih h) (length_later_after fails stream agenda a.answer)

theorem pending_sublist_of_mem_trail (h : next ∈ trail fails stream agenda log)
    (same : next.later.length = agenda.later.length) : next.pending.Sublist agenda.pending := by
  induction log generalizing agenda with
  | nil => exact List.mem_singleton.mp h ▸ .refl _
  | cons a log ih =>
    rcases List.mem_cons.mp h with rfl | h
    · exact .refl _
    · have hnext := length_later_of_mem_trail h
      have hafter := length_later_after fails stream agenda a.answer
      have hlater := ih h (by omega)
      have hpending : (agenda.after fails stream a.answer).pending.Sublist
          (unconfirmed fails agenda.pending a.answer) := pending_after_sublist (by omega)
      exact hlater.trans (hpending.trans (unconfirmed_sublist _ _ _))

def Distinct (agenda : Agenda) : Prop := agenda.pending.Nodup ∧ ∀ records ∈ agenda.later, records.Nodup

theorem distinct_start {batches : List (List Record)} (h : ∀ records ∈ batches, records.Nodup) :
    (start batches).Distinct := by
  cases batches with
  | nil => exact ⟨.nil, h⟩
  | cons records later =>
    exact ⟨h records List.mem_cons_self, fun more hmore => h more (List.mem_cons_of_mem records hmore)⟩

theorem Distinct.after (h : agenda.Distinct) : (agenda.after fails stream answer).Distinct := by
  have hrest : (rest (unconfirmed fails agenda.pending answer) (agenda.left - 1) agenda.later).Distinct := by
    unfold rest
    split
    · exact distinct_start h.2
    · exact ⟨h.1.sublist (unconfirmed_sublist _ _ _), h.2⟩
  unfold Agenda.after
  split
  · exact hrest
  · exact hrest
  · exact distinct_start fun records hrecords => nomatch hrecords

theorem neverRepeats_of_distinct (h : agenda.Distinct) : NeverRepeats fails stream agenda log := by
  intro k l i before next a response entries record entry hbefore hnext hlt same ha hanswer htold hi
    hentry hfails
  induction log generalizing agenda k l with
  | nil => simp at ha
  | cons b log ih =>
    cases l with
    | zero => cases hlt
    | succ l =>
      cases k with
      | zero =>
        obtain rfl := Option.some.inj hbefore
        obtain rfl := Option.some.inj ha
        have hmem : next ∈ trail fails stream (agenda.after fails stream b.answer) log :=
          List.mem_of_getElem? hnext
        have hlater := length_later_of_mem_trail hmem
        have hafter := length_later_after fails stream agenda b.answer
        have hrest := pending_sublist_of_mem_trail hmem (by omega)
        have hleft := hrest.trans (pending_after_sublist (by omega))
        rw [hanswer] at hleft
        exact fun hrecord => not_mem_unconfirmed h.1 htold hi hentry hfails (hleft.subset hrecord)
      | succ k => exact ih h.after k l hbefore hnext (Nat.lt_of_succ_lt_succ hlt) ha

end Trails

/-- The requests of a run are those of its agenda: they go as far as it leads, and never repeat what did not
fail. -/
def Governs (fails : Payload → Bool) (stream : Text) (first : Agenda) (h : List Exchange)
    (r : Except Failure Unit) : Prop :=
  (∃ last, Leads fails stream first (attempts h) last ∧ Ends stream h r last) ∧
    NeverRepeats fails stream first (attempts h)

end Agenda

namespace Sink

theorem Delivery.leads {sink : Sink} {events : List Event} {h : List Exchange} {r : Except Failure Unit}
    {batches : List (List Record)} (hdelivery : Delivery sink events h r)
    (converted : List.Forall₂ (fun window records => toRecords sink.nullKey window = .ok records)
      (windows windowSize windowSize_pos events) batches) :
    ∃ last, Agenda.Leads Payload.reportsFailure (sink.naming (destinationOf events)) (.start batches)
        (attempts h) last ∧
      Agenda.Ends (sink.naming (destinationOf events)) h r last := by
  cases hdelivery with
  | @halted n halt t course =>
    obtain ⟨last, hleads, hends⟩ := Agenda.leads_of_course (r := .error halt.failure) course
      (fun ended hended => by rw [Option.some.inj hended]) converted
    rw [attempts_opening_append]
    exact ⟨last, hleads, hends.subset (List.subset_append_right _ _)⟩
  | @finished n t answer course =>
    obtain ⟨last, hleads, hends⟩ := Agenda.leads_of_course (r := answer.mapError .outside) course
      (fun ended hended => by cases hended) converted
    have hfinish : attempts [⟨.finish, answer⟩] = [] := rfl
    rw [attempts_opening_append, attempts_append, hfinish, List.append_nil]
    exact ⟨last, hleads, hends.subset fun x hx =>
      List.mem_append_right _ (List.mem_append_left _ hx)⟩

/-- What an open sink sends for a batch that converts is what the agenda of its windows asks for: to the
stream of the first event, each window as a whole at first, then what was left of it, and at most five
times. -/
theorem requests_follow_agenda {σ : Type} (world : World σ) (s : σ) (sink : Sink) (events : List Event)
    (batches : List (List Record)) (opened : sink.isOpen = true)
    (converted : (windows windowSize windowSize_pos events).mapM (toRecords sink.nullKey) = .ok batches) :
    (∀ records ∈ batches, 0 < records.length ∧ records.length ≤ windowSize) ∧
    Agenda.Governs Payload.reportsFailure (sink.naming (destinationOf events)) (.start batches)
      (Interaction.history world (sink.handleBatch events).run s)
      (Interaction.run world (sink.handleBatch events).run s).1 := by
  have hpath := Interaction.path_run world (sink.handleBatch events).run s
  have hnodup : ∀ records ∈ batches, records.Nodup := by
    intro records hrecords
    obtain ⟨window, -, hwindow⟩ := exists_of_mem_mapM converted hrecords
    exact nodup_of_toRecords hwindow
  refine ⟨?_, ((path_handleBatch_iff opened).mp hpath).leads (mapM_eq_ok_iff.mp converted), ?_⟩
  · intro records hrecords
    obtain ⟨window, hmem, hwindow⟩ := exists_of_mem_mapM converted hrecords
    obtain ⟨hne, hlength⟩ := ne_nil_of_mem_windows hmem
    rw [length_of_toRecords hwindow]
    exact ⟨List.length_pos_iff.mpr hne, hlength⟩
  · exact Agenda.neverRepeats_of_distinct (Agenda.distinct_start hnodup)

/-- Where the first answer fails for the second of two events, the agenda governs what is sent for them. -/
theorem keyed_requests_follow_agenda :
    (windows windowSize windowSize_pos keyedEvents).mapM (toRecords plain.nullKey) = .ok [keyedRecords] ∧
    Agenda.Governs Payload.reportsFailure [] (.start [keyedRecords])
      (Interaction.history World.playing (plain.handleBatch keyedEvents).run
        [Payload.ofCodes [.null, .bool true], Payload.ofCodes [.null]])
      (Interaction.run World.playing (plain.handleBatch keyedEvents).run
        [Payload.ofCodes [.null, .bool true], Payload.ofCodes [.null]]).1 := by
  have hconverted : (windows windowSize windowSize_pos keyedEvents).mapM (toRecords plain.nullKey)
      = .ok [keyedRecords] := by
    rw [windows_keyedEvents]
    rfl
  exact ⟨hconverted, (requests_follow_agenda World.playing _ plain _ _ rfl hconverted).2⟩

/-- An error code that counts as true does not always have its record sent again. -/
theorem not_requests_follow_agenda_by_code :
    ¬ Agenda.Governs Payload.hasErrorCode [] (.start [keyedRecords])
      (Interaction.history World.playing (plain.handleBatch keyedEvents).run
        [Payload.ofCodes [.model [], .bool true], Payload.ofCodes [.null]])
      (Interaction.run World.playing (plain.handleBatch keyedEvents).run
        [Payload.ofCodes [.model [], .bool true], Payload.ofCodes [.null]]).1 := by
  rintro ⟨⟨last, hleads, -⟩, -⟩
  have hattempts : attempts (Interaction.history World.playing (plain.handleBatch keyedEvents).run
      [Payload.ofCodes [.model [], .bool true], Payload.ofCodes [.null]])
      = [⟨⟨[], keyedRecords.map Record.entry⟩, .ok (Payload.ofCodes [.model [], .bool true])⟩,
        ⟨⟨[], [⟨"b", .empty⟩]⟩, .ok (Payload.ofCodes [.null])⟩] := by
    rw [handleBatch_of_isOpen rfl, windows_keyedEvents]
    rfl
  rw [hattempts] at hleads
  cases hleads with
  | sent _ more =>
    cases more with
    | sent next _ =>
      -- the second request would carry both records
      have hcount := congrArg (Option.map fun request : Request => request.entries.length) next
      exact absurd hcount (by decide)

end Sink

end EventDelivery

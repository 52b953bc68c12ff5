import EventDelivery.Proofs.Entries
import EventDelivery.Proofs.Run

/-! What follows when every record is taken that is sent. Each window is sent once and nothing pauses; a delivery
goes through, unless an event has no entry that could be sent. -/

namespace EventDelivery
open Interaction (Path)
set_option autoImplicit false

/-- The answer to an attempt tells the success of every record of the request. -/
def Attempt.Confirmed (a : Attempt) : Prop :=
  ∃ response entries, a.answer = .ok response ∧ response.told? a.request.entries.length = some entries ∧
    ∀ entry ∈ entries, entry.tellsFailure = false

def AllConfirmed (h : List Exchange) : Prop := ∀ a ∈ attempts h, a.Confirmed

def Calm (h : List Exchange) : Prop := ∀ x ∈ h, ∀ duration, x.call ≠ .sleep duration

def requests (h : List Exchange) : List Request := (attempts h).map (·.request)

section Histories
variable {h k : List Exchange}

@[simp] theorem requests_append : requests (h ++ k) = requests h ++ requests k := by
  rw [requests, attempts_append, List.map_append, ← requests, ← requests]

@[simp] theorem calm_append_iff : Calm (h ++ k) ↔ Calm h ∧ Calm k := List.forall_mem_append

@[simp] theorem allConfirmed_append_iff : AllConfirmed (h ++ k) ↔ AllConfirmed h ∧ AllConfirmed k := by
  rw [AllConfirmed, attempts_append, List.forall_mem_append, ← AllConfirmed, ← AllConfirmed]

theorem calm_of_effortless (effortless : ∀ x ∈ h, x.call.isEffort = false) : Calm h := by
  intro x hx duration hsleep
  have hcall := effortless x hx
  rw [hsleep] at hcall
  cases hcall

theorem requests_of_effortless (effortless : ∀ x ∈ h, x.call.isEffort = false) : requests h = [] := by
  have hattempts : attempts h = [] := by
    apply List.filterMap_eq_nil_iff.mpr
    intro x hx
    have hcall := effortless x hx
    obtain ⟨c, answer⟩ := x
    cases c <;> first | rfl | cases hcall
  rw [requests, hattempts, List.map_nil]

end Histories

namespace Payload

theorem told?_eq_some {response : Payload} {n : Nat} {entries : List Payload}
    (h : response.told? n = some entries) :
    ∃ returned, Writer.responseField response "Records" (.sequence .list []) = .ok returned ∧
      returned.length? = some n ∧ returned.items? = some entries := by
  unfold told? at h
  split at h
  · rename_i returned hreturned
    split at h
    · rename_i hlength
      exact ⟨returned, hreturned, hlength, h⟩
    · cases h
  · cases h

end Payload

namespace Writer

variable {naming : Text → Text} {stream destination : Text} {records : List Record} {response : Payload}
  {entries : List Payload}

theorem exists_responseField {name name' : String} {absent absent' field : Payload}
    (h : responseField response name absent = .ok field) :
    ∃ field', responseField response name' absent' = .ok field' := by
  unfold responseField at h ⊢
  split at h
  · exact ⟨_, rfl⟩
  · cases h

theorem resultsOf_of_told (told : response.told? records.length = some entries) :
    resultsOf records response
      = (records.zip entries).mapM fun (record, item) => do return ⟨record, ← Outcome.ofEntry item⟩ := by
  obtain ⟨returned, hreturned, hlength, hitems⟩ := Payload.told?_eq_some told
  rw [resultsOf, bind_of_eq_ok hreturned]
  simp only [hlength, hitems, Option.getD_some, ne_eq, not_true_eq_false, if_false]

/-- An answer that tells every success leaves no record to be submitted again. -/
theorem reply_of_confirmed {answer : Except RequestFailure Payload}
    (h : Attempt.Confirmed ⟨⟨stream, records.map Record.entry⟩, answer⟩) :
    ∃ results, reply stream records answer = .ok results ∧ Retry.failed results = [] := by
  obtain ⟨response, entries, hanswer, told, success⟩ := h
  simp only at hanswer
  subst hanswer
  rw [List.length_map] at told
  obtain ⟨returned, hreturned, -, -⟩ := Payload.told?_eq_some told
  obtain ⟨count, hcount⟩ := @exists_responseField response "Records" "FailedRecordCount" _ (.int 0) _ hreturned
  have hreply : reply stream records (.ok response) = resultsOf records response := bind_of_eq_ok hcount
  cases hresults : resultsOf records response with
  | error failure =>
    rw [resultsOf_of_told told] at hresults
    obtain ⟨pair, hpair, hfailed⟩ := exists_of_mapM_eq_error hresults
    have htells := success pair.2 (List.of_mem_zip hpair).2
    rcases bind_eq_error_iff.mp hfailed with hentry | ⟨outcome, -, hok⟩
    · rw [Payload.tellsFailure, hentry] at htells
      cases htells
    · cases hok
  | ok results =>
    refine ⟨results, hreply.trans hresults, ?_⟩
    have hleft := unconfirmed_of_reply_ok Payload.goesByOutcome_tellsFailure (hreply.trans hresults)
    have hnone : unconfirmed Payload.tellsFailure records (.ok response) = [] := by
      simp only [unconfirmed, told]
      rw [List.map_eq_nil_iff, List.filter_eq_nil_iff]
      intro pair hpair
      rw [success pair.2 (List.of_mem_zip hpair).2]
      exact Bool.false_ne_true
    rw [hnone] at hleft
    exact List.map_eq_nil_iff.mp hleft.symm

theorem sent_of_confirmed {t : List Exchange} {r : Except Failure (List Result)} (hne : records ≠ [])
    (h : Path (putRecords naming destination records).run t r) (confirmed : AllConfirmed t) :
    (∃ results, r = .ok results ∧ Retry.failed results = []) ∧
      requests t = [⟨naming destination, records.map Record.entry⟩] ∧ Calm t := by
  obtain ⟨answer, hattempts, -, hreply⟩ := sent_of_path hne h
  refine ⟨?_, ?_, ?_⟩
  · rw [hreply]
    apply reply_of_confirmed
    apply confirmed
    rw [hattempts]
    exact List.mem_singleton_self _
  · rw [requests, hattempts]
    rfl
  · have hcalls : (putRecords naming destination records).run.Calls (∀ duration, · ≠ .sleep duration) := by
      apply calls_putRecords
      · intro request duration hsleep
        cases hsleep
      · intro stream count duration hsleep
        cases hsleep
    exact hcalls.of_path h

end Writer

theorem Retry.course_of_confirmed {naming : Text → Text} {interval : Seconds} {destination : Text}
    {left made : Nat} {pending : List Record} {t : List Exchange} {r : Except Failure Nat}
    (h : Course (Writer.putRecords naming) interval destination (left + 1) made pending t r)
    (hne : pending ≠ []) (confirmed : AllConfirmed t) :
    (∃ k, r = .ok k) ∧ requests t = [⟨naming destination, pending.map Record.entry⟩] ∧ Calm t := by
  have hnone {reply : Except Failure (List Result)} {rest : List Record}
      (hreply : ∃ results, reply = .ok results ∧ failed results = []) : again? pending reply ≠ some rest := by
    obtain ⟨results, rfl, hfailed⟩ := hreply
    simp [again?, hfailed]
  cases h with
  | confirmed replied all =>
    obtain ⟨-, hrequests, hcalm⟩ := Writer.sent_of_confirmed hne replied confirmed
    exact ⟨⟨_, rfl⟩, hrequests, hcalm⟩
  | broken replied final =>
    obtain ⟨⟨results, hreply, -⟩, -⟩ := Writer.sent_of_confirmed hne replied confirmed
    cases hreply
  | cancelled more replied asked =>
    rw [allConfirmed_append_iff] at confirmed
    exact absurd asked (hnone (Writer.sent_of_confirmed hne replied confirmed.1).1)
  | again replied asked later =>
    rw [List.append_assoc, allConfirmed_append_iff] at confirmed
    exact absurd asked (hnone (Writer.sent_of_confirmed hne replied confirmed.1).1)

namespace Sink

section Batches
variable {sink : Sink} {destination : Text} {events : List Event} {t : List Exchange}

/-- A delivery that is confirmed goes through, unless an event has no entry. -/
theorem carries_of_course {n : Nat} {halt : Option Halt} (h : Course sink destination events n halt t)
    (confirmed : AllConfirmed t) (marking : ∀ event fault, (⟨.mark event, .error fault⟩ : Exchange) ∉ t) :
    Calm t ∧
    ((halt = none ∧ List.Forall₂ (Carries sink.nullKey (sink.naming destination))
        (windows windowSize windowSize_pos events) (requests t)) ∨
      halt ≠ none ∧ ∃ event ∈ events, ∀ entry, ¬ event.Gives sink.nullKey entry) := by
  induction h with
  | complete =>
    rw [windows_nil]
    exact ⟨List.forall_mem_nil _, .inl ⟨rfl, .nil⟩⟩
  | unconverted nonempty converted =>
    -- conversion stops at an event that has no record where it stands, and so has no entry anywhere
    refine ⟨List.forall_mem_nil _, .inr ⟨nofun, ?_⟩⟩
    obtain ⟨⟨event, i⟩, hmem, hfailed⟩ := exists_of_mapM_eq_error converted
    refine ⟨event, ?_, Event.not_gives_of_toRecord hfailed⟩
    apply List.mem_of_mem_take
    exact (List.mem_zipIdx' hmem).2 ▸ List.getElem_mem _
  | unpublished nonempty converted published =>
    have hne := ne_nil_of_converted nonempty converted
    obtain ⟨⟨k, hk⟩, -⟩ := Retry.course_of_confirmed (course_of_publishWindow hne published) hne confirmed
    cases hk
  | @refused events xs ys event records t k fault =>
    exact absurd (by simp) (marking event fault)
  | @delivered events records t u k n halt nonempty converted published later ih =>
    have hne := ne_nil_of_converted nonempty converted
    rw [allConfirmed_append_iff, allConfirmed_append_iff] at confirmed
    obtain ⟨hpublished, -, hlater⟩ := confirmed
    obtain ⟨-, hrequests, hcalm⟩ :=
      Retry.course_of_confirmed (course_of_publishWindow hne published) hne hpublished
    obtain ⟨hcalm', hends⟩ := ih hlater fun event fault hmem => marking event fault (by simp [hmem])
    have haccepted : Calm ((events.take windowSize).map Exchange.accepted) := by
      intro x hx duration
      obtain ⟨event, -, rfl⟩ := List.mem_map.mp hx
      exact nofun
    refine ⟨?_, ?_⟩
    · rw [calm_append_iff, calm_append_iff]
      exact ⟨hcalm, haccepted, hcalm'⟩
    · rcases hends with ⟨hnone, hcarries⟩ | ⟨hsome, event, hevent, hbare⟩
      · left
        refine ⟨hnone, ?_⟩
        rw [requests, attempts_published, List.map_append, ← requests, ← requests, hrequests,
          windows_of_ne_nil _ _ nonempty]
        exact .cons ⟨rfl, gives_of_toRecords converted⟩ hcarries
      · right
        exact ⟨hsome, event, List.mem_of_mem_drop hevent, hbare⟩

/-- A batch that is confirmed is published without a failure, unless an event has no entry. -/
theorem packed_of_publishBatch (opened : sink.isOpen = true) {r : Except Failure BatchReport}
    (h : Path (sink.publishBatch events).run t r) (confirmed : AllConfirmed t) :
    Calm t ∧
    (((∃ report, r = .ok report ∧ report.failure = none) ∧ Packed sink.nullKey sink.naming events (requests t)) ∨
      (∀ report, r = .ok report → report.failure ≠ none) ∧
        ∃ event ∈ events, ∀ entry, ¬ event.Gives sink.nullKey entry) := by
  obtain ⟨u, ending, hu, hagree, rfl, rfl⟩ := path_of_publishBatch h
  have hconfirmed : AllConfirmed u := by rwa [AllConfirmed, attempts_outward] at confirmed
  have hrequests : requests (outward u) = requests u := by rw [requests, attempts_outward, requests]
  have hcalm (calm : Calm u) : Calm (outward u) := fun x hx => calm x (List.mem_of_mem_filter hx)
  have hopening : Calm (opening events) := by
    apply calm_of_effortless
    intro x hx
    unfold opening at hx
    split at hx
    · rw [List.mem_singleton.mp hx]
      rfl
    · cases hx
  rw [hrequests]
  cases (path_handleBatch_iff opened).mp hu with
  | @halted n halt v course =>
    obtain ⟨-, hv⟩ := allConfirmed_append_iff.mp hconfirmed
    obtain ⟨hcalm', ⟨hnone, -⟩ | ⟨-, hbare⟩⟩ := carries_of_course course hv fun event fault hmem =>
      hagree.marking event fault (List.mem_append_right _ hmem)
    · cases hnone
    · refine ⟨hcalm (calm_append_iff.mpr ⟨hopening, hcalm'⟩), .inr ⟨?_, hbare⟩⟩
      intro report hreport
      simp only [reportOf] at hreport
      split at hreport
      · obtain rfl := Except.ok.inj hreport
        exact Option.some_ne_none _
      · cases hreport
  | @finished n v answer course =>
    obtain ⟨-, hfinished⟩ := allConfirmed_append_iff.mp hconfirmed
    obtain ⟨hv, -⟩ := allConfirmed_append_iff.mp hfinished
    obtain ⟨hcalm', ⟨-, hcarries⟩ | ⟨hsome, -⟩⟩ := carries_of_course course hv fun event fault hmem =>
      hagree.marking event fault (List.mem_append_right _ (List.mem_append_left _ hmem))
    · have hfinish : Calm [⟨.finish, answer⟩] := calm_of_effortless (List.forall_mem_singleton.mpr rfl)
      refine ⟨?_, .inl ⟨?_, ?_⟩⟩
      · exact hcalm (calm_append_iff.mpr ⟨hopening, calm_append_iff.mpr ⟨hcalm', hfinish⟩⟩)
      · cases answer with
        | error fault => exact absurd (by simp) (hagree.finishing fault)
        | ok ended => exact ⟨_, rfl, rfl⟩
      · have hwhole : requests (opening events ++ (v ++ [⟨.finish, answer⟩])) = requests v := by
          rw [requests, attempts_opening_append, attempts_append, requests]
          exact congrArg _ (List.append_nil _)
        rw [hwhole]
        exact hcarries
    · exact absurd rfl hsome

end Batches

end Sink

namespace Service

open Batch (traces)

section Traces
variable {batches : List Batch}

theorem allConfirmed_traces_iff : AllConfirmed (traces batches) ↔ ∀ batch ∈ batches, AllConfirmed batch.trace := by
  rw [AllConfirmed, attempts, traces, List.filterMap_flatMap]
  exact List.forall_mem_flatMap

theorem calm_traces_iff : Calm (traces batches) ↔ ∀ batch ∈ batches, Calm batch.trace :=
  List.forall_mem_flatMap

theorem requests_traces : requests (traces batches) = (batches.map fun batch => requests batch.trace).flatten := by
  rw [requests, attempts, traces, List.filterMap_flatMap, List.map_flatMap]
  rfl

end Traces

section Groups
variable {sink : Sink} {published : Nat} {groups : List (List Event)} {t : List Exchange}

theorem packed_of_delivers (opened : sink.isOpen = true) {ending : Except Failure Ending}
    (h : Delivers sink none published groups t ending) (confirmed : AllConfirmed t) :
    Calm t ∧
    (((∃ n, ending = .ok (.complete n)) ∧
        ∃ parts, requests t = parts.flatten ∧ List.Forall₂ (Packed sink.nullKey sink.naming) groups parts) ∨
      (∀ n, ending ≠ .ok (.complete n)) ∧
        ∃ group ∈ groups, ∃ event ∈ group, ∀ entry, ¬ event.Gives sink.nullKey entry) := by
  have hcalm {batches : List Batch} (hpublished : ∀ batch ∈ batches, batch.Published sink)
      (hconfirmed : AllConfirmed (traces batches)) : Calm (traces batches) := by
    apply calm_traces_iff.mpr
    intro batch hbatch
    exact (Sink.packed_of_publishBatch opened (hpublished batch hbatch).path
      (allConfirmed_traces_iff.mp hconfirmed batch hbatch)).1
  cases h with
  | complete batches all delivered whole =>
    refine ⟨hcalm (Batch.published_of_delivered delivered) confirmed, .inl ⟨⟨_, rfl⟩, ?_⟩⟩
    refine ⟨_, requests_traces, ?_⟩
    rw [all, List.forall₂_map_left_iff, List.forall₂_map_right_iff, List.forall₂_same]
    intro batch hbatch
    obtain ⟨hpublished, hnone⟩ := delivered batch hbatch
    obtain ⟨-, ⟨-, hpacked⟩ | ⟨hfailed, -⟩⟩ := Sink.packed_of_publishBatch opened hpublished.path
      (allConfirmed_traces_iff.mp confirmed batch hbatch)
    · exact hpacked
    · exact absurd hnone (hfailed _ rfl)
  | cut batches all delivered bad => cases bad
  | @failed batches last later failure split delivered tried reported =>
    obtain ⟨hconfirmed, -⟩ := allConfirmed_append_iff.mp confirmed
    have hlast := allConfirmed_traces_iff.mp hconfirmed last (List.mem_append_right _ List.mem_cons_self)
    refine ⟨?_, .inr ⟨nofun, ?_⟩⟩
    · rw [calm_append_iff]
      exact ⟨hcalm (Batch.published_concat delivered tried) hconfirmed, List.forall_mem_singleton.mpr nofun⟩
    · obtain ⟨-, ⟨⟨report, hreport, hnone⟩, -⟩ | ⟨-, hbare⟩⟩ :=
        Sink.packed_of_publishBatch opened tried.path hlast
      · obtain rfl := Except.ok.inj hreport
        rw [reported] at hnone
        cases hnone
      · refine ⟨last.group, ?_, hbare⟩
        rw [split]
        exact List.mem_append_right _ List.mem_cons_self
  | @raised batches group later u failure split delivered raised =>
    obtain ⟨hconfirmed, hraised⟩ := allConfirmed_append_iff.mp confirmed
    obtain ⟨hcalm', ⟨⟨report, hreport, -⟩, -⟩ | ⟨-, hbare⟩⟩ :=
      Sink.packed_of_publishBatch opened raised hraised
    · cases hreport
    · refine ⟨?_, .inr ⟨nofun, group, ?_, hbare⟩⟩
      · rw [calm_append_iff]
        exact ⟨hcalm (Batch.published_of_delivered delivered) hconfirmed, hcalm'⟩
      · rw [split]
        exact List.mem_append_right _ List.mem_cons_self

end Groups

section Runs
variable {environment : Environment} {settings : Settings} {naming : StreamNaming} {source : ClientSource}
  {events : List Event} {t : List Exchange} {r : Except Failure Nat}

/-- A run that is confirmed ends well, unless an event has no entry. -/
theorem packed_of_serves (positive : 0 < settings.batchSize.toNat) (sound : settings.Sound)
    (named : StreamNaming.ofName settings.streamNaming = .ok naming) {logger : RootLogger}
    (logging : RootLogger.configure environment .untouched = .ok logger)
    (connected : ∀ connection fault, (⟨.connect connection, .error fault⟩ : Exchange) ∉ t)
    (h : Serves environment settings source ⟨events, none⟩ t r) (confirmed : AllConfirmed t) :
    Calm t ∧
    ((r = .ok 0 ∧ ∃ parts, requests t = parts.flatten ∧
        List.Forall₂ (Packed settings.nullKey naming.apply) (windows settings.batchSize.toNat positive events) parts) ∨
      r ≠ .ok 0 ∧ ∃ event ∈ events, ∀ entry, ¬ event.Gives settings.nullKey entry) := by
  cases h with
  | unlogged unset =>
    rw [logging] at unset
    cases unset
  | @unconnected fault standard =>
    exact absurd (by simp) (connected ⟨settings.region, settings.endpoint, settings.profile⟩ fault)
  | @served sink closed opening delivery closing ending positive' opened delivers closes =>
    rcases Sink.path_ofSettings sound opened with ⟨fault, -, hfault, -⟩ | ⟨client, naming', hnaming, hsink⟩
    · cases hfault
    obtain rfl := Except.ok.inj hsink
    rw [hnaming, StreamNaming.ofName_name] at named
    obtain rfl := Except.ok.inj named
    have hopening : ∀ x ∈ opening, x.call.isEffort = false := fun x hx =>
      Call.isEffort_of_isAside (Sink.calls_ofSettings.of_path opened x hx)
    have hclosing : ∀ x ∈ closing, x.call.isEffort = false := fun x hx =>
      Call.isEffort_of_isAside (Sink.calls_close.of_path closes x hx)
    have hrest : AllConfirmed (opening ++ (delivery ++ closing) ++ stopping ending) := confirmed
    rw [allConfirmed_append_iff, allConfirmed_append_iff, allConfirmed_append_iff] at hrest
    have hrequests : requests (opening ++ (delivery ++ closing) ++ stopping ending) = requests delivery := by
      rw [requests_append, requests_append, requests_append, requests_of_effortless hopening,
        requests_of_effortless hclosing, requests_of_effortless effortless_of_stopping, List.nil_append,
        List.append_nil, List.append_nil]
    obtain ⟨hcalm, hends⟩ := packed_of_delivers rfl delivers hrest.1.2.1
    have hcalmly : Calm (opening ++ (delivery ++ closing) ++ stopping ending) := by
      rw [calm_append_iff, calm_append_iff, calm_append_iff]
      exact ⟨⟨calm_of_effortless hopening, hcalm, calm_of_effortless hclosing⟩,
        calm_of_effortless effortless_of_stopping⟩
    refine ⟨?_, ?_⟩
    · intro x hx
      rcases List.mem_cons.mp hx with rfl | hx
      · exact nofun
      · exact hcalmly x hx
    · rcases hends with ⟨⟨n, rfl⟩, parts, hparts, hpacked⟩ | ⟨hends, group, hgroup, event, hevent, hbare⟩
      · left
        rw [Feed.groups_of_whole] at hpacked
        exact ⟨rfl, parts, hrequests.trans hparts, hpacked⟩
      · right
        refine ⟨?_, event, Feed.mem_events_of_mem_groups hgroup hevent, hbare⟩
        intro hzero
        cases ending with
        | error failure => cases hzero
        | ok ended =>
          cases ended with
          | complete n => exact hends n rfl
          | failed n => cases hzero

end Runs

end Service

end EventDelivery

import EventDelivery.Proofs.Boundary

/-! No event is marked before it is confirmed. When the committer is asked to take an event, every record of
its window has an entry without a failure, in the answer to the last request that carried the record. -/

namespace EventDelivery
open Interaction (Path)
set_option autoImplicit false

/-- The last request of a log that carries the record is answered with an entry in its place that does not
fail. -/
def LastConfirmed (fails : Payload → Bool) (records : List Record) (log : List Attempt)
    (record : Record) : Prop :=
  ∃ (k : Nat) (a : Attempt) (cargo : List Record) (i : Nat) (response : Payload) (entries : List Payload)
    (entry : Payload), log[k]? = some a ∧ (carried fails records log)[k]? = some cargo ∧
      cargo[i]? = some record ∧ a.answer = .ok response ∧ response.told? cargo.length = some entries ∧
      entries[i]? = some entry ∧ fails entry = false ∧
      ∀ l later, k < l → (carried fails records log)[l]? = some later → record ∉ later

theorem LastConfirmed.cons {fails : Payload → Bool} {records : List Record} {a : Attempt}
    {log : List Attempt} {record : Record}
    (h : LastConfirmed fails (unconfirmed fails records a.answer) log record) :
    LastConfirmed fails records (a :: log) record := by
  obtain ⟨k, b, cargo, i, response, entries, entry, hb, hcargo, hi, hanswer, htold, hentry, hfails, hlast⟩ := h
  refine ⟨k + 1, b, cargo, i, response, entries, entry, hb, hcargo, hi, hanswer, htold, hentry, hfails, ?_⟩
  intro l later hl hlater
  cases l with
  | zero => exact absurd hl (Nat.not_lt_zero _)
  | succ l => exact hlast l later (Nat.lt_of_succ_lt_succ hl) hlater

theorem lastConfirmed_of_remaining {fails : Payload → Bool} {records : List Record} {log : List Attempt}
    (all : remaining fails records log = []) {record : Record} (h : record ∈ records) :
    LastConfirmed fails records log record := by
  induction log generalizing records with
  | nil =>
    rw [show records = [] from all] at h
    cases h
  | cons a log ih =>
    by_cases hmem : record ∈ unconfirmed fails records a.answer
    · exact (ih all hmem).cons
    -- the entry of this answer is the last word on the record, since what follows carries less
    · obtain ⟨i, hi⟩ := List.mem_iff_getElem?.mp h
      obtain ⟨response, entries, entry, hanswer, htold, hentry, hfails⟩ :=
        confirmed_of_not_mem_unconfirmed hi hmem
      refine ⟨0, a, records, i, response, entries, entry, rfl, rfl, hi, hanswer, htold, hentry, hfails, ?_⟩
      intro l later hl hlater hrecord
      cases l with
      | zero => exact absurd hl (Nat.lt_irrefl 0)
      | succ l =>
        have hcarried : later ∈ carried fails (unconfirmed fails records a.answer) log :=
          List.mem_of_getElem? hlater
        exact hmem ((carried_sublist hcarried).subset hrecord)

section WindowAttempts
variable {t h : List Exchange} {events : List Event} {w : Nat}

theorem windowAttempts_zero (hp : ∀ x ∈ t, x.isPublishing) :
    windowAttempts 0 (t ++ events.map Exchange.accepted) = attempts t := by
  rw [windowAttempts, attemptsFrom_append, attemptsFrom_accepted, List.append_nil,
    attemptsFrom_of_publishing hp, Nat.mul_zero, List.filter_eq_self.mpr, List.map_map]
  · exact List.map_id _
  · intro x hx
    obtain ⟨a, -, rfl⟩ := List.mem_map.mp hx
    rfl

theorem windowAttempts_succ (hp : ∀ x ∈ t, x.isPublishing) (full : events.length = windowSize) :
    windowAttempts (w + 1) (t ++ (events.map Exchange.accepted ++ h)) = windowAttempts w h := by
  have hfirst : ((attempts t).map (0, ·)).filter (fun x => x.1 = windowSize * (w + 1)) = [] := by
    rw [List.filter_eq_nil_iff]
    intro x hx
    obtain ⟨a, -, rfl⟩ := List.mem_map.mp hx
    have := windowSize_pos
    simp [Nat.mul_succ]
    omega
  have hlater : ((attemptsFrom windowSize h).filter fun x => x.1 = windowSize * (w + 1)).map (·.2)
      = windowAttempts w h := by
    have hnumbers : (attemptsFrom 0 h).filter
        ((fun x => decide (x.1 = windowSize * (w + 1))) ∘ fun x => (windowSize + x.1, x.2))
        = (attemptsFrom 0 h).filter fun x => x.1 = windowSize * w := by
      refine List.filter_congr fun x _ => ?_
      rw [Function.comp_apply, Nat.mul_succ, decide_eq_decide]
      omega
    rw [attemptsFrom_eq_map, List.filter_map, hnumbers, List.map_map]
    rfl
  rw [windowAttempts, attemptsFrom_published hp, full, Nat.zero_add, List.filter_append, hfirst,
    List.nil_append, hlater]

end WindowAttempts

theorem split_accepted {xs : List Event} {rest before after : List Exchange} {event : Event}
    {answer : Except Fault Unit}
    (h : xs.map Exchange.accepted ++ rest = before ++ ⟨.mark event, answer⟩ :: after) :
    (∃ ys zs, xs = ys ++ event :: zs ∧ before = ys.map Exchange.accepted) ∨
      ∃ more, before = xs.map Exchange.accepted ++ more ∧ rest = more ++ ⟨.mark event, answer⟩ :: after := by
  rcases List.append_eq_append_iff.mp h with ⟨more, rfl, hrest⟩ | ⟨more, hxs, hmore⟩
  · exact .inr ⟨more, rfl, hrest⟩
  obtain ⟨ys, zs, rfl, rfl, rfl⟩ := List.map_eq_append_iff.mp hxs
  cases zs with
  | nil => exact .inr ⟨[], by simp, hmore.symm⟩
  | cons z zs =>
    obtain ⟨hz, -⟩ := List.cons.inj hmore
    obtain ⟨rfl⟩ := Call.mark.inj (congrArg Exchange.call hz)
    exact .inl ⟨ys, zs, rfl, rfl⟩

namespace Sink

/-- Every event of window `w` of a batch has a record, and the requests that were sent for the window so
far confirm it. -/
def Confirmed (fails : Payload → Bool) (sink : Sink) (destination : Text) (events : List Event) (w : Nat)
    (h : List Exchange) : Prop :=
  ∃ window records, (windows windowSize windowSize_pos events)[w]? = some window ∧
    toRecords sink.nullKey window = .ok records ∧
    Follows fails (sink.naming destination) records (windowAttempts w h) ∧
    ∀ j < window.length, ∃ record, records[j]? = some record ∧ record.position = j ∧
      LastConfirmed fails records (windowAttempts w h) record

section Courses
variable {sink : Sink} {destination : Text} {events : List Event}

theorem confirmed_of_published {records : List Record} {t : List Exchange} {k : Nat} {xs : List Event}
    (nonempty : events ≠ []) (converted : toRecords sink.nullKey (events.take windowSize) = .ok records)
    (published : Path (sink.publishWindow destination records).run t (.ok k)) :
    Confirmed Payload.reportsFailure sink destination events 0 (t ++ xs.map Exchange.accepted) := by
  obtain ⟨hpublishing, hfollows, -, hconcludes⟩ := published_of_converted nonempty converted published
  refine ⟨_, records, by rw [windows_of_ne_nil _ _ nonempty, List.getElem?_cons_zero], converted, ?_⟩
  rw [windowAttempts_zero hpublishing]
  refine ⟨hfollows, fun j hj => ?_⟩
  have hall : remaining Payload.reportsFailure records (attempts t) = [] := by
    cases hconcludes with
    | confirmed all => exact all
  have hlt : j < records.length := by rwa [length_of_toRecords converted]
  have hget : records[j]? = some records[j] := List.getElem?_eq_getElem hlt
  exact ⟨_, hget, position_of_toRecords converted hget,
    lastConfirmed_of_remaining hall (List.mem_of_getElem? hget)⟩

theorem Confirmed.succ {fails : Payload → Bool} {t h : List Exchange} {w : Nat}
    (hp : ∀ x ∈ t, x.isPublishing)
    (hconfirmed : Confirmed fails sink destination (events.drop windowSize) w h) :
    (events.take windowSize).length = windowSize ∧
      Confirmed fails sink destination events (w + 1)
        (t ++ ((events.take windowSize).map Exchange.accepted ++ h)) := by
  obtain ⟨window, records, hwindow, hrecords, hrest⟩ := hconfirmed
  have hlt := windowSize_lt_of_getElem?_windows hwindow
  have hne : events ≠ [] := List.ne_nil_of_length_pos (by omega)
  have hfull : (events.take windowSize).length = windowSize := List.length_take_of_le (Nat.le_of_lt hlt)
  refine ⟨hfull, window, records, ?_, hrecords, ?_⟩
  · rwa [windows_of_ne_nil _ _ hne, List.getElem?_cons_succ]
  · rwa [windowAttempts_succ hp hfull]

theorem marked_of_publishing {t : List Exchange} {xs : List Event} (hp : ∀ x ∈ t, x.isPublishing) :
    marks (t ++ xs.map Exchange.accepted) = xs := by
  rw [marks_append, marks_of_publishing hp, marks_accepted, List.nil_append]

/-- A mark that is asked for is that of the next event of the batch, whose window is confirmed. -/
def MarkedInTurn (fails : Payload → Bool) (sink : Sink) (destination : Text) (events : List Event)
    (before : List Exchange) (event : Event) : Prop :=
  marks before ++ [event] <+: events ∧
    Confirmed fails sink destination events ((marks before).length / windowSize) before

theorem markedInTurn_of_published {records : List Record} {t : List Exchange} {k : Nat}
    {xs ys : List Event} {event : Event} (nonempty : events ≠ [])
    (converted : toRecords sink.nullKey (events.take windowSize) = .ok records)
    (published : Path (sink.publishWindow destination records).run t (.ok k))
    (split : events.take windowSize = xs ++ event :: ys) :
    MarkedInTurn Payload.reportsFailure sink destination events (t ++ xs.map Exchange.accepted) event := by
  have hpublished := published_of_converted nonempty converted published
  have hlt : xs.length < windowSize := by
    have hlength := congrArg List.length split
    rw [List.length_take, List.length_append, List.length_cons] at hlength
    omega
  have hwindow : xs ++ [event] <+: events.take windowSize := ⟨ys, by rw [split]; simp⟩
  refine ⟨?_, ?_⟩
  · rw [marked_of_publishing hpublished.publishing]
    exact hwindow.trans (List.take_prefix _ _)
  · rw [marked_of_publishing hpublished.publishing, Nat.div_eq_of_lt hlt]
    exact confirmed_of_published nonempty converted published

theorem not_mem_of_publishing {t : List Exchange} {event : Event} {answer : Except Fault Unit}
    (hp : ∀ x ∈ t, x.isPublishing) : (⟨.mark event, answer⟩ : Exchange) ∉ t :=
  fun hmem => nomatch hp _ hmem

theorem markedInTurn_of_course {n : Nat} {halt : Option Halt} {t before after : List Exchange}
    {event : Event} {answer : Except Fault Unit} (h : Course sink destination events n halt t)
    (hsplit : t = before ++ ⟨.mark event, answer⟩ :: after) :
    MarkedInTurn Payload.reportsFailure sink destination events before event := by
  induction h generalizing before with
  | complete | unconverted => simp at hsplit
  | unpublished nonempty converted published =>
    have hpublished := published_of_converted nonempty converted published
    rw [hsplit] at hpublished
    exact absurd (List.mem_append_right before List.mem_cons_self)
      (not_mem_of_publishing hpublished.publishing)
  | @refused events xs ys refusing records t k fault nonempty converted published split =>
    have hpublished := published_of_converted nonempty converted published
    obtain ⟨before, rfl, hmarks⟩ := split_of_not_mem hsplit (not_mem_of_publishing hpublished.publishing)
    rcases split_accepted hmarks with ⟨xs, more, rfl, rfl⟩ | ⟨more, rfl, hlast⟩
    · rw [List.append_assoc, List.cons_append] at split
      exact markedInTurn_of_published nonempty converted published split
    · cases more with
      | nil =>
        obtain ⟨hmark, -⟩ := List.cons.inj hlast
        obtain ⟨rfl⟩ := Call.mark.inj (congrArg Exchange.call hmark)
        rw [List.append_nil]
        exact markedInTurn_of_published nonempty converted published split
      | cons x more => simp at hlast
  | @delivered events records t u k n halt nonempty converted published later ih =>
    have hpublished := published_of_converted nonempty converted published
    obtain ⟨before, rfl, hmarks⟩ := split_of_not_mem hsplit (not_mem_of_publishing hpublished.publishing)
    rcases split_accepted hmarks with ⟨xs, ys, hxs, rfl⟩ | ⟨before, rfl, hlater⟩
    · exact markedInTurn_of_published nonempty converted published hxs
    · obtain ⟨hnext, hconfirmed⟩ := ih hlater
      obtain ⟨hfull, hsucc⟩ := hconfirmed.succ (t := t) hpublished.publishing
      constructor
      · rw [marks_published hpublished.publishing, List.append_assoc]
        have hnexts := (List.prefix_append_right_inj (events.take windowSize)).mpr hnext
        rwa [List.take_append_drop] at hnexts
      · rw [marks_published hpublished.publishing, List.length_append, hfull, Nat.add_div_left _ windowSize_pos]
        exact hsucc

end Courses

/-- The accepted marks follow the order of the batch, and each mark that is asked for is that of the next
event, whose window is confirmed by then. -/
def MarksConfirmed (fails : Payload → Bool) (sink : Sink) (events : List Event) (h : List Exchange) : Prop :=
  marks h <+: events ∧
    ∀ (before after : List Exchange) (event : Event) (answer : Except Fault Unit),
      h = before ++ ⟨.mark event, answer⟩ :: after →
      MarkedInTurn fails sink (destinationOf events) events before event

@[simp] theorem windowAttempts_opening_append {events : List Event} {w : Nat} {h : List Exchange} :
    windowAttempts w (opening events ++ h) = windowAttempts w h := by
  rw [windowAttempts, attemptsFrom_opening_append, windowAttempts]

theorem MarkedInTurn.opening {fails : Payload → Bool} {sink : Sink} {destination : Text}
    {events : List Event} {before : List Exchange} {event : Event}
    (h : MarkedInTurn fails sink destination events before event) :
    MarkedInTurn fails sink destination events (opening events ++ before) event := by
  simpa only [MarkedInTurn, Confirmed, marks_opening_append, windowAttempts_opening_append] using h

theorem Delivery.marksConfirmed {sink : Sink} {events : List Event} {h : List Exchange}
    {r : Except Failure Unit} (hdelivery : Delivery sink events h r) :
    MarksConfirmed Payload.reportsFailure sink events h := by
  have hopening : ∀ {event : Event} {answer : Except Fault Unit},
      (⟨.mark event, answer⟩ : Exchange) ∉ opening events :=
    not_mem_of_publishing fun x => isPublishing_of_mem_opening
  cases hdelivery with
  | @halted n halt t course =>
    refine ⟨by rw [marks_opening_append]; exact (marks_of_course course).1, ?_⟩
    intro before after event answer hsplit
    obtain ⟨before, rfl, ht⟩ := split_of_not_mem hsplit hopening
    exact (markedInTurn_of_course course ht).opening
  | @finished n t answer course =>
    constructor
    · have hfinish : marks [⟨.finish, answer⟩] = [] := rfl
      rw [marks_opening_append, marks_append, hfinish, List.append_nil]
      exact (marks_of_course course).1
    intro before after event told hsplit
    obtain ⟨before, rfl, ht⟩ := split_of_not_mem hsplit hopening
    obtain ⟨rest, ht⟩ := split_of_ne_last ht fun hcall => nomatch congrArg Exchange.call hcall
    exact (markedInTurn_of_course course ht).opening

/-- Whatever the outside answers and wherever it cuts a pause short, events are marked in the order of the
batch, and none before its window is confirmed. -/
theorem marks_confirmed {σ : Type} (world : World σ) (s : σ) (sink : Sink) (events : List Event) :
    MarksConfirmed Payload.reportsFailure sink events
      (Interaction.history world (sink.handleBatch events).run s) := by
  have hpath := Interaction.path_run world (sink.handleBatch events).run s
  cases hopen : sink.isOpen with
  | true => exact ((path_handleBatch_iff hopen).mp hpath).marksConfirmed
  | false =>
    rw [path_handleBatch_of_closed hopen hpath]
    exact ⟨List.nil_prefix, fun before after event answer hsplit => by simp at hsplit⟩

/-- An error code that counts as true does not always keep an event from being marked. -/
theorem not_marks_confirmed_by_code :
    ¬ MarksConfirmed Payload.hasErrorCode plain [⟨.null, .null, []⟩]
      (Interaction.history World.playing (plain.handleBatch [⟨.null, .null, []⟩]).run
        [Payload.ofCodes [.model []]]) := by
  rintro ⟨-, hmarks⟩
  have hhistory : Interaction.history World.playing (plain.handleBatch [⟨.null, .null, []⟩]).run
      [Payload.ofCodes [.model []]] =
        [⟨.send ⟨[], [⟨"default", .empty⟩]⟩, .ok (Payload.ofCodes [.model []])⟩,
          ⟨.note (.response [] (.int 0)), ()⟩] ++
        ⟨.mark ⟨.null, .null, []⟩, .ok ()⟩ :: [⟨.finish, .ok ()⟩] := by
    rw [handleBatch_of_isOpen rfl, windows_of_length_le (List.cons_ne_nil _ _) (by decide)]
    rfl
  obtain ⟨-, window, records, hwindow, hrecords, -, hconfirmed⟩ := hmarks _ _ _ _ hhistory
  rw [windows_of_length_le (List.cons_ne_nil _ _) (by decide)] at hwindow
  obtain rfl := Option.some.inj hwindow
  obtain ⟨record, -, -, k, a, cargo, i, response, entries, entry, ha, -, -, hanswer, htold, hentry, hfails, -⟩ :=
    hconfirmed 0 Nat.one_pos
  have hmem : a ∈ [(⟨⟨[], [⟨"default", .empty⟩]⟩, .ok (Payload.ofCodes [.model []])⟩ : Attempt)] :=
    List.mem_of_getElem? ha
  obtain rfl := List.mem_singleton.mp hmem
  obtain rfl := Except.ok.inj hanswer
  unfold Payload.told? at htold
  split at htold
  · rename_i returned hreturned
    obtain rfl := Except.ok.inj hreturned
    split at htold
    · obtain rfl := Option.some.inj htold
      obtain rfl := List.mem_singleton.mp (List.mem_of_getElem? hentry)
      cases hfails
    · cases htold
  · cases htold

end Sink

end EventDelivery

import EventDelivery.Proofs.Collecting
import EventDelivery.Proofs.Exhaustion

/-! What publishing a batch reports: everything and no failure, or the windows before the one that failed and
its failure. A delivery that was given up tells exactly the events of its window that were never confirmed. -/

namespace EventDelivery.Sink
open Interaction (Path)
set_option autoImplicit false

/-- What the report of a delivery that was given up tells of a batch of which `m` events are processed. -/
structure Undelivered (sink : Sink) (events : List Event) (m : Nat) (report : DeliveryReport)
    (h : List Exchange) : Prop where
  aligned : windowSize ∣ m
  within : m < events.length
  attempts_eq : report.attempts = 5
  nonempty : report.positions ≠ []
  increasing : report.positions.Pairwise (· < ·)
  inside : ∀ p ∈ report.positions, 0 ≤ p ∧ m + p < (min (m + windowSize) events.length : Nat)
  /-- The last five requests are those of the window, and the positions are those of the events that none of
  their answers confirms. -/
  unconfirmed : ∃ (records : List Record) (earlier log : List Attempt),
    toRecords sink.nullKey ((events.drop m).take windowSize) = .ok records ∧
    attempts h = earlier ++ log ∧
    (∀ a ∈ earlier, ∃ v < m / windowSize, OfWindow sink (destinationOf events) events v a) ∧
    Spent Payload.reportsFailure (sink.naming (destinationOf events)) 5 records log ∧
    ∀ j, m + j < min (m + windowSize) events.length → ∃ record, records[j]? = some record ∧
      ((j : Int) ∈ report.positions ↔ ¬ ConfirmedIn Payload.reportsFailure records log record)

section Windows
variable {sink : Sink} {events : List Event} {window : List Event} {records left : List Record}

theorem pairwise_positions (converted : toRecords sink.nullKey window = .ok records)
    (sublist : left.Sublist records) :
    (left.map fun record => (record.position : Int)).Pairwise (· < ·) := by
  apply List.pairwise_map.mpr
  apply ((pairwise_position_of_toRecords converted).sublist sublist).imp
  intro x y hxy
  exact_mod_cast hxy

theorem mem_positions_iff (converted : toRecords sink.nullKey window = .ok records)
    (sublist : left.Sublist records) {j : Nat} {record : Record} (hj : records[j]? = some record) :
    (j : Int) ∈ left.map (fun record => (record.position : Int)) ↔ record ∈ left := by
  have hposition := position_of_toRecords converted hj
  constructor
  · intro hmem
    obtain ⟨other, hother, heq⟩ := List.mem_map.mp hmem
    obtain ⟨i, hi⟩ := List.mem_iff_getElem?.mp (sublist.subset hother)
    have hi' := position_of_toRecords converted hi
    have hij : i = j := by omega
    rw [hij, hj] at hi
    rwa [Option.some.inj hi]
  · intro hmem
    exact List.mem_map.mpr ⟨record, hmem, by rw [hposition]⟩

end Windows

section Deliveries
variable {sink : Sink} {events : List Event} {u : List Exchange} {r : Except Failure Unit}

theorem undelivered_of_stopsIn {n : Nat} {halt : Halt} {report : DeliveryReport}
    (hstops : StopsIn sink events n halt u) (hwindow : halt.isOfWindow = true)
    (hdelivery : halt.failure = .delivery report) :
    Undelivered sink events (windowSize * n) report (outward u) := by
  obtain ⟨hwithin, -, -, -⟩ := hstops.boundary hwindow
  obtain ⟨t, rfl, hcourse⟩ := hstops
  cases halt with
  | acknowledgement fault => cases hwindow
  | conversion failure =>
    obtain rfl : failure = .delivery report := hdelivery
    exact absurd (unconverted_of_course hcourse rfl) toRecords_ne_delivery
  | publication failure =>
    obtain rfl : failure = .delivery report := hdelivery
    obtain ⟨records, t₁, t₂, hconverted, hne, hpublished, hattempts, hearlier⟩ :=
      unpublished_of_course hcourse rfl
    obtain ⟨hspent, rfl⟩ := spent_of_course Payload.goesByOutcome_reportsFailure
      (course_of_publishWindow hne hpublished) hne rfl
    have hlength : ((events.drop (windowSize * n)).take windowSize).length
        = min (windowSize * n + windowSize) events.length - windowSize * n := by
      rw [List.length_take, List.length_drop]
      omega
    refine ⟨Nat.dvd_mul_right windowSize n, hwithin, rfl, ?_, ?_, ?_, ?_⟩
    · simpa using hspent.some
    · exact pairwise_positions hconverted remaining_sublist
    · intro p hp
      obtain ⟨record, hrecord, rfl⟩ := List.mem_map.mp hp
      have hlt := position_lt_of_toRecords hconverted (remaining_sublist.subset hrecord)
      omega
    · rw [Nat.mul_div_cancel_left n windowSize_pos, attempts_outward, attempts_opening_append]
      refine ⟨records, attempts t₁, attempts t₂, hconverted, hattempts, hearlier, hspent, ?_⟩
      intro j hj
      have hlt : j < records.length := by
        rw [length_of_toRecords hconverted]
        omega
      have hget : records[j]? = some records[j] := List.getElem?_eq_getElem hlt
      refine ⟨records[j], hget, ?_⟩
      rw [mem_positions_iff hconverted remaining_sublist hget]
      exact mem_remaining_iff (nodup_of_toRecords hconverted) (List.mem_of_getElem? hget)

/-- A delivery to an agreeable committer marks and finishes everything, or it stops in a window. -/
theorem Delivery.all_or_stopsIn (hdelivery : Delivery sink events u r) (hagree : Agreeable u) :
    (r = .ok () ∧ marks u = events ∧ u.any Exchange.isFinish = true) ∨
      ∃ n halt, r = .error halt.failure ∧ halt.isOfWindow = true ∧ StopsIn sink events n halt u := by
  cases hr : r with
  | error failure =>
    obtain ⟨n, halt, hwindow, rfl, hstops⟩ := hdelivery.stopsIn hr hagree.marking hagree.finishing
    exact .inr ⟨n, halt, rfl, hwindow, hstops⟩
  | ok ended =>
    cases hdelivery with
    | halted course => cases hr
    | @finished n t answer course =>
      have hfinish : marks [⟨.finish, answer⟩] = [] := rfl
      refine .inl ⟨rfl, ?_, ?_⟩
      · rw [marks_opening_append, marks_append, hfinish, List.append_nil]
        exact (marks_of_course course).2 rfl
      · simp [Exchange.isFinish]

end Deliveries

/-- The report of an open sink has no failure exactly when all events are processed, and exactly then the
batch is finished and the report is good. A delivery that was given up is told as it was. -/
theorem publishBatch_reports {σ : Type} (world : World σ) (s : σ) (sink : Sink) (events : List Event)
    (report : BatchReport) (opened : sink.isOpen = true)
    (returned : (Interaction.run world (sink.publishBatch events).run s).1 = .ok report) :
    (report.ok = true ↔ report.failure = none) ∧ (report.failure = none ↔ report.processed = events) ∧
    report.finished = report.ok ∧
    ∀ delivery, report.failure = some (.delivery delivery) →
      Undelivered sink events report.processed.length delivery
        (Interaction.history world (sink.publishBatch events).run s) := by
  have hpath := Interaction.path_run world (sink.publishBatch events).run s
  rw [returned] at hpath
  obtain ⟨u, ending, hu, hagree, hhistory, hreport⟩ := path_of_publishBatch hpath
  rw [hhistory]
  rcases ((path_handleBatch_iff opened).mp hu).all_or_stopsIn hagree with
    ⟨rfl, hmarks, hfinish⟩ | ⟨n, halt, rfl, hwindow, hstops⟩
  · obtain rfl := Except.ok.inj hreport
    simp [BatchReport.ok, hmarks, hfinish]
  · have hreported : report = ⟨marks u, false, some halt.failure⟩ := by
      simp only [reportOf] at hreport
      split at hreport
      · exact Except.ok.inj hreport
      · cases hreport
    obtain ⟨hwithin, hmarks, -, -⟩ := hstops.boundary hwindow
    have hlength : (marks u).length = windowSize * n := by
      rw [hmarks, List.length_take_of_le (Nat.le_of_lt hwithin)]
    have hpart : marks u ≠ events := by
      intro heq
      rw [heq] at hlength
      omega
    subst hreported
    refine ⟨by simp [BatchReport.ok], by simp [hpart], rfl, ?_⟩
    intro delivery hdelivery
    have hundelivered := undelivered_of_stopsIn hstops hwindow (Option.some.inj hdelivery)
    rwa [← hlength] at hundelivered

def secondRefused : List Payload :=
  Payload.ofCodes [.null, .bool true] :: List.replicate 4 (Payload.ofCodes [.bool true])

/-- The second of two events is told when the service never takes it. -/
theorem second_event_reported :
    (Interaction.run World.playing (plain.publishBatch keyedEvents).run secondRefused).1
      = .ok ⟨[], false, some (.delivery ⟨[], 5, [1]⟩)⟩ ∧
    Undelivered plain keyedEvents 0 ⟨[], 5, [1]⟩
      (Interaction.history World.playing (plain.publishBatch keyedEvents).run secondRefused) := by
  have hreturned : (Interaction.run World.playing (plain.publishBatch keyedEvents).run secondRefused).1
      = .ok ⟨[], false, some (.delivery ⟨[], 5, [1]⟩)⟩ := by
    rw [publishBatch, handleBatch_of_isOpen rfl, windows_keyedEvents]
    rfl
  obtain ⟨-, -, -, hdelivery⟩ :=
    publishBatch_reports World.playing secondRefused plain keyedEvents _ rfl hreturned
  exact ⟨hreturned, hdelivery _ rfl⟩

end EventDelivery.Sink

import EventDelivery.Proofs.Delivery

/-! The boundary that a failed delivery leaves behind. The windows before the one that failed are marked in
full, of that one and of those after it nothing is, and no request went beyond it. -/

namespace EventDelivery
open Interaction (Path)
set_option autoImplicit false

namespace Sink

/-- The request of an attempt carries records of window `v` of a batch, and nothing else. -/
def OfWindow (sink : Sink) (destination : Text) (events : List Event) (v : Nat) (a : Attempt) : Prop :=
  ∃ (window : List Event) (records cargo : List Record),
    (windows windowSize windowSize_pos events)[v]? = some window ∧
    toRecords sink.nullKey window = .ok records ∧ cargo.Sublist records ∧
    a.request = ⟨sink.naming destination, cargo.map Record.entry⟩

theorem windowSize_lt_of_getElem?_windows {events window : List Event} {v : Nat}
    (h : (windows windowSize windowSize_pos (events.drop windowSize))[v]? = some window) :
    windowSize < events.length := by
  by_contra hle
  rw [List.drop_eq_nil_of_le (Nat.le_of_not_lt hle), windows_nil] at h
  cases h

theorem OfWindow.succ {sink : Sink} {destination : Text} {events : List Event} {v : Nat} {a : Attempt}
    (h : OfWindow sink destination (events.drop windowSize) v a) :
    windowSize < events.length ∧ OfWindow sink destination events (v + 1) a := by
  obtain ⟨window, records, cargo, hwindow, hrecords, hcargo, hrequest⟩ := h
  have hlt := windowSize_lt_of_getElem?_windows hwindow
  refine ⟨hlt, window, records, cargo, ?_, hrecords, hcargo, hrequest⟩
  have hne : events ≠ [] := List.ne_nil_of_length_pos (by omega)
  rwa [windows_of_ne_nil _ _ hne, List.getElem?_cons_succ]

end Sink

theorem Follows.request {fails : Payload → Bool} {stream : Text} {records : List Record}
    {log : List Attempt} (h : Follows fails stream records log) {a : Attempt} (ha : a ∈ log) :
    ∃ cargo : List Record, cargo.Sublist records ∧ a.request = ⟨stream, cargo.map Record.entry⟩ := by
  induction log generalizing records with
  | nil => cases ha
  | cons b log ih =>
    obtain ⟨-, hrequest, hlater⟩ := h
    rcases List.mem_cons.mp ha with rfl | ha
    · exact ⟨records, .refl _, hrequest⟩
    · obtain ⟨cargo, hcargo, hrequest⟩ := ih hlater ha
      exact ⟨cargo, hcargo.trans (unconfirmed_sublist _ _ _), hrequest⟩

namespace Sink

section Courses
variable {sink : Sink} {destination : Text} {events : List Event} {n : Nat} {t : List Exchange}

theorem ne_nil_of_converted {records : List Record} (nonempty : events ≠ [])
    (converted : toRecords sink.nullKey (events.take windowSize) = .ok records) : records ≠ [] := by
  rw [← List.length_pos_iff, length_of_toRecords converted, List.length_take]
  have := windowSize_pos
  have := List.length_pos_iff.mpr nonempty
  omega

theorem published_of_converted {records : List Record} {r : Except Failure Nat} (nonempty : events ≠ [])
    (converted : toRecords sink.nullKey (events.take windowSize) = .ok records)
    (published : Path (sink.publishWindow destination records).run t r) :
    Published (sink.naming destination) destination 5 0 records t r :=
  published_of_course (course_of_publishWindow (ne_nil_of_converted nonempty converted) published)
    (ne_nil_of_converted nonempty converted)

theorem ofWindow_of_published {records : List Record} {r : Except Failure Nat} (nonempty : events ≠ [])
    (converted : toRecords sink.nullKey (events.take windowSize) = .ok records)
    (published : Path (sink.publishWindow destination records).run t r) {a : Attempt}
    (ha : a ∈ attempts t) : OfWindow sink destination events 0 a := by
  have hpublished := published_of_converted nonempty converted published
  obtain ⟨cargo, hcargo, hrequest⟩ := hpublished.follows.request ha
  refine ⟨_, records, cargo, ?_, converted, hcargo, hrequest⟩
  rw [windows_of_ne_nil _ _ nonempty, List.getElem?_cons_zero]

theorem marks_of_course {halt : Option Halt} (h : Course sink destination events n halt t) :
    marks t <+: events ∧ (halt = none → marks t = events) := by
  induction h with
  | complete => exact ⟨List.prefix_refl _, fun _ => rfl⟩
  | unconverted => exact ⟨List.nil_prefix, fun hnone => by cases hnone⟩
  | unpublished nonempty converted published =>
    have hpublished := published_of_converted nonempty converted published
    rw [marks_of_publishing hpublished.publishing]
    exact ⟨List.nil_prefix, fun hnone => by cases hnone⟩
  | @refused events xs ys event records t k fault nonempty converted published split =>
    have hpublished := published_of_converted nonempty converted published
    have hmarks : marks [⟨.mark event, .error fault⟩] = [] := rfl
    rw [marks_published hpublished.publishing, hmarks, List.append_nil]
    refine ⟨?_, fun hnone => by cases hnone⟩
    have hwindow : xs <+: events.take windowSize := split ▸ List.prefix_append _ _
    exact hwindow.trans (List.take_prefix _ _)
  | @delivered events records t u k n halt nonempty converted published later ih =>
    have hpublished := published_of_converted nonempty converted published
    rw [marks_published hpublished.publishing]
    obtain ⟨hmarked, hall⟩ := ih
    constructor
    · have hmarks := (List.prefix_append_right_inj (events.take windowSize)).mpr hmarked
      rwa [List.take_append_drop] at hmarks
    · intro hnone
      rw [hall hnone, List.take_append_drop]

/-- Where the committer had no part in the failure, the windows before it are marked and no others. -/
theorem marks_of_isOfWindow {halt : Option Halt} (h : Course sink destination events n halt t)
    {ended : Halt} (hended : halt = some ended) (hwindow : ended.isOfWindow = true) :
    windowSize * n < events.length ∧ marks t = events.take (windowSize * n) := by
  induction h with
  | complete => cases hended
  | unconverted nonempty converted => exact ⟨List.length_pos_iff.mpr nonempty, rfl⟩
  | unpublished nonempty converted published =>
    have hpublished := published_of_converted nonempty converted published
    exact ⟨List.length_pos_iff.mpr nonempty, marks_of_publishing hpublished.publishing⟩
  | refused =>
    obtain rfl := Option.some.inj hended
    cases hwindow
  | @delivered events records t u k n halt nonempty converted published later ih =>
    have hpublished := published_of_converted nonempty converted published
    obtain ⟨hlt, hmarks⟩ := ih hended
    rw [List.length_drop] at hlt
    constructor
    · rw [Nat.mul_succ]
      omega
    · rw [marks_published hpublished.publishing, hmarks, Nat.mul_succ, Nat.add_comm, List.take_add]

theorem isFinish_of_course {halt : Option Halt} (h : Course sink destination events n halt t)
    {x : Exchange} (hx : x ∈ t) : x.isFinish = false := by
  induction h with
  | complete | unconverted => cases hx
  | unpublished nonempty converted published =>
    have hpublished := published_of_converted nonempty converted published
    exact Exchange.isFinish_of_isPublishing (hpublished.publishing x hx)
  | @refused events xs ys event records t k fault nonempty converted published split =>
    have hpublished := published_of_converted nonempty converted published
    rcases isFinish_of_mem_published hpublished.publishing hx with hx | hx
    · exact hx
    · rw [List.mem_singleton.mp hx]
      rfl
  | delivered nonempty converted published later ih =>
    have hpublished := published_of_converted nonempty converted published
    rcases isFinish_of_mem_published hpublished.publishing hx with hx | hx
    · exact hx
    · exact ih hx

theorem ofWindow_of_course {halt : Option Halt} (h : Course sink destination events n halt t)
    {x : Nat × Attempt} (hx : x ∈ attemptsFrom 0 t) :
    ∃ v ≤ n, x.1 = windowSize * v ∧ OfWindow sink destination events v x.2 := by
  induction h generalizing x with
  | complete | unconverted => cases hx
  | unpublished nonempty converted published =>
    have hpublished := published_of_converted nonempty converted published
    rw [attemptsFrom_of_publishing hpublished.publishing] at hx
    obtain ⟨a, ha, rfl⟩ := List.mem_map.mp hx
    exact ⟨0, Nat.le_refl 0, rfl, ofWindow_of_published nonempty converted published ha⟩
  | @refused events xs ys event records t k fault nonempty converted published split =>
    have hpublished := published_of_converted nonempty converted published
    have hrefused : ∀ m, attemptsFrom m [⟨.mark event, .error fault⟩] = [] := fun _ => rfl
    rw [attemptsFrom_published hpublished.publishing, hrefused, List.append_nil] at hx
    obtain ⟨a, ha, rfl⟩ := List.mem_map.mp hx
    exact ⟨0, Nat.le_refl 0, rfl, ofWindow_of_published nonempty converted published ha⟩
  | @delivered events records t u k n halt nonempty converted published later ih =>
    have hpublished := published_of_converted nonempty converted published
    rw [attemptsFrom_published hpublished.publishing, Nat.zero_add, attemptsFrom_eq_map] at hx
    rcases List.mem_append.mp hx with hx | hx
    · obtain ⟨a, ha, rfl⟩ := List.mem_map.mp hx
      exact ⟨0, Nat.zero_le _, rfl, ofWindow_of_published nonempty converted published ha⟩
    · obtain ⟨y, hy, rfl⟩ := List.mem_map.mp hx
      obtain ⟨v, hv, hnumber, hwindow⟩ := ih hy
      obtain ⟨hlt, hlater⟩ := hwindow.succ
      refine ⟨v + 1, Nat.succ_le_succ hv, ?_, hlater⟩
      rw [hnumber, List.length_take_of_le (Nat.le_of_lt hlt), Nat.mul_succ, Nat.add_comm]

theorem not_ofWindow_of_conversion {halt : Option Halt} (h : Course sink destination events n halt t)
    {failure : Failure} (hended : halt = some (.conversion failure)) (a : Attempt) :
    ¬ OfWindow sink destination events n a := by
  induction h with
  | complete | unpublished | refused => cases hended
  | unconverted nonempty converted =>
    rintro ⟨window, records, cargo, hwindow, hrecords, -⟩
    rw [windows_of_ne_nil _ _ nonempty, List.getElem?_cons_zero] at hwindow
    obtain rfl := Option.some.inj hwindow
    rw [converted] at hrecords
    cases hrecords
  | delivered nonempty converted published later ih =>
    rintro ⟨window, records, cargo, hwindow, hrest⟩
    rw [windows_of_ne_nil _ _ nonempty, List.getElem?_cons_succ] at hwindow
    exact ih hended ⟨window, records, cargo, hwindow, hrest⟩

theorem refused_of_course {halt : Option Halt} (h : Course sink destination events n halt t)
    {fault : Fault} (hended : halt = some (.acknowledgement fault)) :
    ∃ event, (⟨.mark event, .error fault⟩ : Exchange) ∈ t := by
  induction h with
  | complete | unconverted | unpublished => cases hended
  | @refused events xs ys event =>
    obtain ⟨⟩ := Option.some.inj hended
    exact ⟨event, by simp⟩
  | delivered nonempty converted published later ih =>
    obtain ⟨event, hevent⟩ := ih hended
    exact ⟨event, List.mem_append_right _ (List.mem_append_right _ hevent)⟩

end Courses

section Openings
variable {events : List Event} {t : List Exchange}

theorem isPublishing_of_mem_opening {x : Exchange} (h : x ∈ opening events) : x.isPublishing := by
  unfold opening at h
  split at h
  · rw [List.mem_singleton.mp h]
    rfl
  · cases h

@[simp] theorem marks_opening_append : marks (opening events ++ t) = marks t := by
  rw [marks_append, marks_of_publishing fun x => isPublishing_of_mem_opening, List.nil_append]

@[simp] theorem attempts_opening_append : attempts (opening events ++ t) = attempts t := by
  have hopening : attempts (opening events) = [] := by
    unfold opening
    split <;> rfl
  rw [attempts_append, hopening, List.nil_append]

@[simp] theorem attemptsFrom_opening_append {n : Nat} :
    attemptsFrom n (opening events ++ t) = attemptsFrom n t := by
  have hmarks : marks (opening events) = [] := marks_of_publishing fun x => isPublishing_of_mem_opening
  have hopening : attemptsFrom n (opening events) = [] := by
    unfold opening
    split <;> rfl
  rw [attemptsFrom_append, hopening, hmarks, List.nil_append, List.length_nil, Nat.add_zero]

end Openings

/-- The delivery of a batch ends in window `w`: those before it are delivered, and a step of it fails. -/
def StopsIn (sink : Sink) (events : List Event) (w : Nat) (halt : Halt) (h : List Exchange) : Prop :=
  ∃ t, h = opening events ++ t ∧ Course sink (destinationOf events) events w (some halt) t

/-- What is left behind where the delivery ends before window `w` is marked. -/
structure Boundary (sink : Sink) (events : List Event) (w : Nat) (h : List Exchange) : Prop where
  within : windowSize * w < events.length
  marked : marks h = events.take (windowSize * w)
  unfinished : ∀ x ∈ h, x.isFinish = false
  requests : ∀ x ∈ attemptsFrom 0 h, ∃ v ≤ w, x.1 = windowSize * v ∧
    OfWindow sink (destinationOf events) events v x.2

theorem StopsIn.boundary {sink : Sink} {events : List Event} {w : Nat} {halt : Halt} {h : List Exchange}
    (hstops : StopsIn sink events w halt h) (hwindow : halt.isOfWindow = true) :
    Boundary sink events w h := by
  obtain ⟨t, rfl, hcourse⟩ := hstops
  obtain ⟨hlt, hmarks⟩ := marks_of_isOfWindow hcourse rfl hwindow
  refine ⟨hlt, by rw [marks_opening_append, hmarks], ?_, ?_⟩
  · intro x hx
    rcases List.mem_append.mp hx with hx | hx
    · exact Exchange.isFinish_of_isPublishing (isPublishing_of_mem_opening hx)
    · exact isFinish_of_course hcourse hx
  · intro x hx
    rw [attemptsFrom_opening_append] at hx
    exact ofWindow_of_course hcourse hx

theorem StopsIn.lt_of_conversion {sink : Sink} {events : List Event} {w : Nat} {failure : Failure}
    {h : List Exchange} (hstops : StopsIn sink events w (.conversion failure) h) {x : Nat × Attempt}
    (hx : x ∈ attemptsFrom 0 h) : x.1 < windowSize * w := by
  obtain ⟨t, rfl, hcourse⟩ := hstops
  rw [attemptsFrom_opening_append] at hx
  obtain ⟨v, hv, hnumber, hwindow⟩ := ofWindow_of_course hcourse hx
  have hne : v ≠ w := by
    rintro rfl
    exact not_ofWindow_of_conversion hcourse rfl x.2 hwindow
  rw [hnumber]
  exact Nat.mul_lt_mul_of_pos_left (Nat.lt_of_le_of_ne hv hne) windowSize_pos

theorem Delivery.stopsIn {sink : Sink} {events : List Event} {t : List Exchange}
    {r : Except Failure Unit} (h : Delivery sink events t r) {failure : Failure}
    (failed : r = .error failure) (marking : ∀ event fault, (⟨.mark event, .error fault⟩ : Exchange) ∉ t)
    (finishing : ∀ fault, (⟨.finish, .error fault⟩ : Exchange) ∉ t) :
    ∃ w halt, halt.isOfWindow = true ∧ halt.failure = failure ∧ StopsIn sink events w halt t := by
  cases h with
  | @halted n halt t course =>
    refine ⟨n, halt, ?_, Except.error.inj failed, t, rfl, course⟩
    cases halt with
    | conversion | publication => rfl
    | acknowledgement fault =>
      obtain ⟨event, hevent⟩ := refused_of_course course rfl
      exact absurd (List.mem_append_right _ hevent) (marking event fault)
  | @finished n t answer course =>
    cases answer with
    | ok ended => cases failed
    | error fault => exact absurd (by simp) (finishing fault)

/-- Where an open sink fails in a window, by converting or by publishing it, the events before that window
are marked and no others, the batch is not finished, and nothing of a later window was sent, nor of
that one when it did not convert. There is no other failure while the committer takes everything. -/
theorem failure_leaves_boundary {σ : Type} (world : World σ) (s : σ) (sink : Sink) (events : List Event)
    (opened : sink.isOpen = true) :
    (∀ failure,
      (Interaction.run world (sink.handleBatch events).run s).1 = .error failure →
      (∀ event fault, (⟨.mark event, .error fault⟩ : Exchange) ∉
        Interaction.history world (sink.handleBatch events).run s) →
      (∀ fault, (⟨.finish, .error fault⟩ : Exchange) ∉
        Interaction.history world (sink.handleBatch events).run s) →
      ∃ w halt, halt.isOfWindow = true ∧ halt.failure = failure ∧
        StopsIn sink events w halt (Interaction.history world (sink.handleBatch events).run s)) ∧
    ∀ w halt, halt.isOfWindow = true →
      StopsIn sink events w halt (Interaction.history world (sink.handleBatch events).run s) →
      (Interaction.run world (sink.handleBatch events).run s).1 = .error halt.failure ∧
      Boundary sink events w (Interaction.history world (sink.handleBatch events).run s) ∧
      ∀ failure, halt = .conversion failure →
        ∀ x ∈ attemptsFrom 0 (Interaction.history world (sink.handleBatch events).run s),
          x.1 < windowSize * w := by
  have hpath := Interaction.path_run world (sink.handleBatch events).run s
  constructor
  · intro failure failed marking finishing
    exact ((path_handleBatch_iff opened).mp hpath).stopsIn failed marking finishing
  · intro w halt hwindow hstops
    refine ⟨?_, hstops.boundary hwindow, ?_⟩
    · obtain ⟨t, ht, hcourse⟩ := hstops
      rw [ht] at hpath
      exact hpath.unique ((path_handleBatch_iff opened).mpr (.halted hcourse))
    · rintro failure rfl x hx
      exact hstops.lt_of_conversion hx

/-- A window that one event fills. -/
def fullWindow : List Event := List.replicate windowSize ⟨.text (Text.ofString "a"), .null, []⟩

/-- The answers of a service that takes a full window and nothing after it. -/
def fullWindowTaken : List Payload := [Payload.ofCodes (List.replicate windowSize .null)]

def unrenderedLast : List Event := fullWindow ++ [⟨.null, .object, []⟩]

theorem windows_unrenderedLast :
    windows windowSize windowSize_pos unrenderedLast = [fullWindow, [⟨.null, .object, []⟩]] := by
  have hlength : fullWindow.length = windowSize := List.length_replicate
  rw [unrenderedLast, windows_append_of_length_eq hlength,
    windows_of_length_le (List.cons_ne_nil _ _) (by decide)]

set_option maxRecDepth 8192 in
theorem run_unrenderedLast :
    (Interaction.run World.playing (plain.handleBatch unrenderedLast).run fullWindowTaken).1
      = .error (.rendering (.unexpected "object")) ∧
    marks (Interaction.history World.playing (plain.handleBatch unrenderedLast).run fullWindowTaken)
      = fullWindow := by
  rw [handleBatch_of_isOpen rfl, windows_unrenderedLast]
  exact ⟨rfl, rfl⟩

/-- The batch is left at the boundary in front of the last event. -/
theorem unrendered_event_leaves_boundary :
    ∃ halt, halt.isOfWindow = true ∧ halt.failure = .rendering (.unexpected "object") ∧
      StopsIn plain unrenderedLast 1 halt
        (Interaction.history World.playing (plain.handleBatch unrenderedLast).run fullWindowTaken) ∧
      Boundary plain unrenderedLast 1
        (Interaction.history World.playing (plain.handleBatch unrenderedLast).run fullWindowTaken) := by
  obtain ⟨hfailed, hmarked⟩ := run_unrenderedLast
  obtain ⟨hfails, hleaves⟩ := failure_leaves_boundary World.playing fullWindowTaken plain unrenderedLast rfl
  obtain ⟨w, halt, hwindow, hfailure, hstops⟩ := hfails _ hfailed World.accepts_playing.mark_not_refused
    World.accepts_playing.finish_not_refused
  obtain ⟨-, hboundary, -⟩ := hleaves w halt hwindow hstops
  obtain rfl : w = 1 := by
    have hlength := congrArg List.length (hmarked.symm.trans hboundary.marked)
    have hwithin := hboundary.within
    have hfull : fullWindow.length = 500 := List.length_replicate
    have hwhole : unrenderedLast.length = 501 := by rw [unrenderedLast, List.length_append, hfull]; rfl
    have hsize : windowSize = 500 := rfl
    rw [hfull, List.length_take, hwhole, hsize] at hlength
    rw [hwhole, hsize] at hwithin
    omega
  exact ⟨halt, hwindow, hfailure, hstops, hboundary⟩

end Sink

end EventDelivery

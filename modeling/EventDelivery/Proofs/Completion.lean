import EventDelivery.Proofs.Boundary

/-! When a batch is finished. A delivery returns exactly when every window was converted, published and then
marked event by event, and the finish comes once, after all marks. -/

namespace EventDelivery.Sink
open Interaction (Path)
set_option autoImplicit false

/-- The exchanges publish the records: there are at most five requests, each of which carries what the answers
before it left unconfirmed, and after the last answer nothing is left. -/
structure Publishes (stream : Text) (records : List Record) (t : List Exchange) : Prop where
  publishing : ∀ x ∈ t, x.isPublishing
  follows : Follows Payload.reportsFailure stream records (attempts t)
  within : (attempts t).length ≤ 5
  confirmed : remaining Payload.reportsFailure records (attempts t) = []

/-- The exchanges deliver a window: what publishes its records, and then the accepted mark of each event. -/
def DeliversWindow (sink : Sink) (destination : Text) (window : List Event) (t : List Exchange) : Prop :=
  ∃ (records : List Record) (p : List Exchange), toRecords sink.nullKey window = .ok records ∧
    Publishes (sink.naming destination) records p ∧ t = p ++ window.map Exchange.accepted

/-- The exchanges deliver a batch window after window, and then it is finished. -/
def Completes (sink : Sink) (events : List Event) (h : List Exchange) : Prop :=
  ∃ traces : List (List Exchange),
    List.Forall₂ (DeliversWindow sink (destinationOf events)) (windows windowSize windowSize_pos events)
      traces ∧
    h = opening events ++ (traces.flatten ++ [⟨.finish, .ok ()⟩])

section Courses
variable {sink : Sink} {destination : Text} {events : List Event} {t : List Exchange}

theorem delivers_of_course {n : Nat} {halt : Option Halt} (h : Course sink destination events n halt t)
    (complete : halt = none) :
    ∃ traces : List (List Exchange),
      List.Forall₂ (DeliversWindow sink destination) (windows windowSize windowSize_pos events) traces ∧
      t = traces.flatten := by
  induction h with
  | complete =>
    rw [windows_nil]
    exact ⟨[], .nil, rfl⟩
  | unconverted | unpublished | refused => cases complete
  | @delivered events records t u k n halt nonempty converted published later ih =>
    have hpublishes : Publishes (sink.naming destination) records t := by
      obtain ⟨publishing, follows, within, concludes⟩ := published_of_converted nonempty converted published
      cases concludes with
      | confirmed all => exact ⟨publishing, follows, within, all⟩
    obtain ⟨traces, htraces, rfl⟩ := ih complete
    rw [windows_of_ne_nil _ _ nonempty]
    refine ⟨(t ++ (events.take windowSize).map Exchange.accepted) :: traces, .cons ?_ htraces, ?_⟩
    · exact ⟨records, t, converted, hpublishes, rfl⟩
    · rw [List.flatten_cons, List.append_assoc]

end Courses

section Deliveries
variable {sink : Sink} {events : List Event} {h : List Exchange} {r : Except Failure Unit}

theorem not_isFinish_of_course {n : Nat} {halt : Option Halt} {t : List Exchange}
    (course : Course sink (destinationOf events) events n halt t) {answer : Except Fault Unit} :
    (⟨.finish, answer⟩ : Exchange) ∉ opening events ++ t := by
  intro hmem
  rcases List.mem_append.mp hmem with hmem | hmem
  · exact nomatch isPublishing_of_mem_opening hmem
  · exact nomatch isFinish_of_course course hmem

theorem Delivery.completes (hdelivery : Delivery sink events h r) (returned : r = .ok ()) :
    Completes sink events h := by
  cases hdelivery with
  | halted => cases returned
  | finished course =>
    rename_i answer
    obtain ⟨traces, htraces, rfl⟩ := delivers_of_course course rfl
    cases answer with
    | ok ended => exact ⟨traces, htraces, rfl⟩
    | error fault => cases returned

theorem Delivery.not_finished (hdelivery : Delivery sink events h r) {failure : Failure}
    (failed : r = .error failure) : (⟨.finish, .ok ()⟩ : Exchange) ∉ h := by
  cases hdelivery with
  | halted course => exact not_isFinish_of_course course
  | finished course =>
    rename_i t answer
    cases answer with
    | ok ended => cases failed
    | error fault =>
      rw [← List.append_assoc]
      intro hmem
      rcases List.mem_append.mp hmem with hmem | hmem
      · exact not_isFinish_of_course course hmem
      · cases List.mem_singleton.mp hmem

theorem Delivery.marked_before_finish (hdelivery : Delivery sink events h r)
    {before after : List Exchange} {answer : Except Fault Unit}
    (hsplit : h = before ++ ⟨.finish, answer⟩ :: after) : marks before = events ∧ after = [] := by
  cases hdelivery with
  | halted course =>
    have hmem : (⟨.finish, answer⟩ : Exchange) ∈ before ++ ⟨.finish, answer⟩ :: after := by simp
    rw [← hsplit] at hmem
    exact absurd hmem (not_isFinish_of_course course)
  | finished course =>
    rw [← List.append_assoc] at hsplit
    obtain ⟨more, rfl, hlast⟩ := split_of_not_mem hsplit (not_isFinish_of_course course)
    cases more with
    | nil =>
      refine ⟨?_, (List.cons.inj hlast).2.symm⟩
      rw [List.append_nil, marks_opening_append]
      exact (marks_of_course course).2 rfl
    | cons x more => simp at hlast

theorem Completes.finished (hcompletes : Completes sink events h) : (⟨.finish, .ok ()⟩ : Exchange) ∈ h := by
  obtain ⟨traces, -, rfl⟩ := hcompletes
  simp

end Deliveries

/-- An open sink returns from a batch exactly when its windows are delivered one after another and the
finish is accepted. When it fails, no finish was accepted, and none is ever asked for but last and with
every event marked. -/
theorem returns_iff_completes {σ : Type} (world : World σ) (s : σ) (sink : Sink) (events : List Event)
    (opened : sink.isOpen = true) :
    ((Interaction.run world (sink.handleBatch events).run s).1 = .ok () ↔
      Completes sink events (Interaction.history world (sink.handleBatch events).run s)) ∧
    (∀ failure, (Interaction.run world (sink.handleBatch events).run s).1 = .error failure →
      (⟨.finish, .ok ()⟩ : Exchange) ∉ Interaction.history world (sink.handleBatch events).run s) ∧
    ∀ (before after : List Exchange) (answer : Except Fault Unit),
      Interaction.history world (sink.handleBatch events).run s = before ++ ⟨.finish, answer⟩ :: after →
      marks before = events ∧ after = [] := by
  have hpath := Interaction.path_run world (sink.handleBatch events).run s
  have hdelivery := (path_handleBatch_iff opened).mp hpath
  refine ⟨⟨hdelivery.completes, ?_⟩, fun failure => hdelivery.not_finished, ?_⟩
  · intro hcompletes
    cases hresult : (Interaction.run world (sink.handleBatch events).run s).1 with
    | ok done => rfl
    | error failure => exact absurd hcompletes.finished (hdelivery.not_finished hresult)
  · intro before after answer hsplit
    exact hdelivery.marked_before_finish hsplit

/-- A batch of one event that is confirmed at once is delivered and finished. -/
theorem single_event_completes :
    (Interaction.run World.playing (plain.handleBatch [⟨.null, .null, []⟩]).run
      [Payload.ofCodes [.null]]).1 = .ok () ∧
    Completes plain [⟨.null, .null, []⟩]
      (Interaction.history World.playing (plain.handleBatch [⟨.null, .null, []⟩]).run
        [Payload.ofCodes [.null]]) := by
  have hreturned : (Interaction.run World.playing (plain.handleBatch [⟨.null, .null, []⟩]).run
      [Payload.ofCodes [.null]]).1 = .ok () := by
    rw [handleBatch_of_isOpen rfl, windows_of_length_le (List.cons_ne_nil _ _) (by decide)]
    rfl
  exact ⟨hreturned, (returns_iff_completes World.playing [Payload.ofCodes [.null]] plain
    [⟨.null, .null, []⟩] rfl).1.mp hreturned⟩

end EventDelivery.Sink

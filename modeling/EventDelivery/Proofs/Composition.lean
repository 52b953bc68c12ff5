import EventDelivery.Proofs.Calls
import EventDelivery.Proofs.Boundary
import EventDelivery.Proofs.Feed

/-! Batches that are cut at the end of a window. Nothing but the events to come is carried from one window to
the next, so a batch is delivered like its two parts one after the other, the first one left unfinished. -/

namespace EventDelivery
open Interaction (Path)
set_option autoImplicit false

section Windows
variable {α : Type} {size : Nat} {positive : 0 < size}

theorem windows_append_of_dvd {xs : List α} (aligned : size ∣ xs.length) (ys : List α) :
    windows size positive (xs ++ ys) = windows size positive xs ++ windows size positive ys := by
  induction xs using windows.induct size positive with
  | case1 => rw [windows_nil, List.nil_append, List.nil_append]
  | case2 x xs ih =>
    -- the first window of the whole is the first window of `xs`, which is full
    have hle : size ≤ (x :: xs).length := Nat.le_of_dvd (Nat.succ_pos _) aligned
    have hfull : ((x :: xs).take size).length = size := List.length_take_of_le hle
    have hrest : size ∣ ((x :: xs).drop size).length := by
      rw [List.length_drop]
      exact Nat.dvd_sub aligned (Nat.dvd_refl size)
    have hsplit : (x :: xs) ++ ys = (x :: xs).take size ++ ((x :: xs).drop size ++ ys) := by
      rw [← List.append_assoc, List.take_append_drop]
    rw [hsplit, windows_append_of_length_eq hfull, ih hrest,
      windows_of_ne_nil _ _ (List.cons_ne_nil x xs), List.cons_append]

end Windows

namespace Interaction

variable {α β : Type}

/-- The interaction without its finish, which is taken as accepted. -/
def unfinished : Interaction α → Interaction α
  | .done a => .done a
  | .call c next =>
    match c, next with
    | .finish, next => unfinished (next (.ok ()))
    | c, next => .call c fun answer => unfinished (next answer)

theorem unfinished_bind (p : Interaction α) (f : α → Interaction β) :
    unfinished (p >>= f) = unfinished p >>= fun a => unfinished (f a) := by
  induction p with
  | done a => rfl
  | call c next ih =>
    cases c with
    | finish => exact ih (.ok ())
    | _ => exact congrArg (call _) (funext ih)

theorem unfinished_of_calls {p : Interaction α} (h : p.Calls (· ≠ .finish)) : unfinished p = p := by
  induction p with
  | done a => rfl
  | call c next ih =>
    cases c with
    | finish => exact absurd rfl h.1
    | _ => exact congrArg (call _) (funext fun answer => ih answer (h.2 answer))

end Interaction

namespace Sink

def deliverWindow (sink : Sink) (destination : Text) (window : List Event) : Action Nat := do
  let records ← Action.ofExcept (toRecords sink.nullKey window)
  sink.publishWindow destination records

def markEach : List Event → Action Unit
  | [] => return ()
  | event :: events => do
    Action.ofCall (.mark event) fun answer => answer.mapError .outside
    markEach events

/-- Windows are delivered without counting what is marked. -/
def deliverEach (sink : Sink) (destination : Text) : List (List Event) → Action Unit
  | [] => return ()
  | window :: rest => do
    let _ ← sink.deliverWindow destination window
    markEach window
    deliverEach sink destination rest

def finishing : Action Unit := Action.ofCall .finish fun answer => answer.mapError .outside

section Equations
variable {sink : Sink} {destination : Text} {tracker : Tracker}

theorem acknowledge_eq_markEach (unfinished : tracker.finished = false) (window : List Event) :
    (ExceptT.mk do
        let (acknowledged, tracker) ← tracker.acknowledge window
        return acknowledged.map fun _ => tracker : Action Tracker)
      = (do markEach window; return tracker.advance window.length) := by
  have hmark : tracker.acknowledge window = tracker.markAll window := by
    simp [Tracker.acknowledge, unfinished]
  rw [hmark]
  -- only the check at the start needed a tracker that is not finished
  clear hmark unfinished
  induction window generalizing tracker with
  | nil => rfl
  | cons event events ih =>
    refine congrArg (Interaction.call (.mark event)) (funext fun answer => ?_)
    cases answer with
    | ok accepted =>
      rw [List.length_cons, ← Tracker.advance_succ]
      exact ih
    | error fault => rfl

theorem deliverWindows_eq_deliverEach (unfinished : tracker.finished = false) (ws : List (List Event)) :
    sink.deliverWindows destination tracker ws
      = (do sink.deliverEach destination ws; return tracker.advance ws.flatten.length) := by
  induction ws generalizing tracker with
  | nil => rfl
  | cons window rest ih =>
    have hstill : (tracker.advance window.length).finished = false := unfinished
    rw [deliverWindows, deliverEach, deliverWindow, acknowledge_eq_markEach unfinished]
    simp only [bind_assoc, pure_bind, ih hstill, Tracker.advance_advance, List.flatten_cons,
      List.length_append]
    rfl

theorem finishBatch_eq_finishing (unfinished : tracker.finished = false) : finishBatch tracker = finishing := by
  simp only [finishBatch, Tracker.finish, unfinished, Bool.false_eq_true, if_false]
  refine congrArg (Interaction.call .finish) (funext fun answer => ?_)
  cases answer <;> rfl

theorem handleBatch_eq {events : List Event} (opened : sink.isOpen = true) :
    sink.handleBatch events = (do
      if events.any fun event => event.destination ≠ destinationOf events then
        Action.note (.mixedDestinations (destinationOf events) events.length)
      sink.deliverEach (destinationOf events) (windows windowSize windowSize_pos events)
      finishing) := by
  rw [handleBatch_of_isOpen opened, deliverWindows_eq_deliverEach rfl]
  simp only [bind_assoc, pure_bind]
  rw [finishBatch_eq_finishing rfl]

theorem handleBatch_of_same {events : List Event} (opened : sink.isOpen = true)
    (same : ∀ event ∈ events, event.destination = destination) :
    sink.handleBatch events = (do
      sink.deliverEach destination (windows windowSize windowSize_pos events)
      finishing) := by
  rw [handleBatch_eq opened]
  cases events with
  | nil =>
    rw [windows_nil]
    rfl
  | cons first rest =>
    have hfirst : destinationOf (first :: rest) = destination := same first List.mem_cons_self
    have hnone : ((first :: rest).any fun event => event.destination ≠ destination) = false := by
      apply List.any_eq_false.mpr
      intro event hevent
      simp [same event hevent]
    rw [hfirst, hnone]
    rfl

theorem handleBatch_of_closed (closed : sink.isOpen = false) (events : List Event) :
    sink.handleBatch events = throw (.late .sinkClosed) := by
  simp only [handleBatch, closed]
  rfl

theorem deliverEach_append (ws vs : List (List Event)) :
    sink.deliverEach destination (ws ++ vs)
      = (do sink.deliverEach destination ws; sink.deliverEach destination vs) := by
  induction ws with
  | nil => rfl
  | cons window rest ih => simp only [List.cons_append, deliverEach, ih, bind_assoc]

theorem calls_publishWindow (records : List Record) :
    (sink.publishWindow destination records).run.Calls (·.isOfWindow) := by
  unfold publishWindow Retry.publish
  split
  · trivial
  · apply Retry.calls_publishFrom
    · intro pending
      exact Writer.calls_putRecords (fun _ => rfl) (fun _ _ => rfl) _ _ _
    · rfl
    · intro notice hnotice
      simp [Call.isOfWindow, hnotice]

theorem calls_deliverWindow (window : List Event) :
    (sink.deliverWindow destination window).run.Calls (·.isOfWindow) := by
  apply Action.calls_bind (Action.calls_lift _)
  intro records
  exact calls_publishWindow records

theorem calls_markEach {kind : Call → Prop} (mark : ∀ event, kind (.mark event)) (events : List Event) :
    (markEach events).run.Calls kind := by
  induction events with
  | nil => trivial
  | cons event events ih =>
    apply Action.calls_bind (Action.calls_ofCall (mark event))
    intro marked
    exact ih

theorem calls_deliverEach {kind : Call → Prop} (deliver : ∀ c : Call, c.isOfWindow → kind c)
    (mark : ∀ event, kind (.mark event)) (ws : List (List Event)) :
    (sink.deliverEach destination ws).run.Calls kind := by
  induction ws with
  | nil => trivial
  | cons window rest ih =>
    apply Action.calls_bind ((calls_deliverWindow window).mono deliver)
    intro delivered
    apply Action.calls_bind (calls_markEach mark window)
    intro marked
    exact ih

theorem calls_handleBatch (events : List Event) : (sink.handleBatch events).run.Calls (·.isOfDelivery) := by
  cases hopen : sink.isOpen with
  | false =>
    rw [handleBatch_of_closed hopen]
    trivial
  | true =>
    rw [handleBatch_eq hopen]
    have hdelivery : ((do
        sink.deliverEach (destinationOf events) (windows windowSize windowSize_pos events)
        finishing) : Action Unit).run.Calls (·.isOfDelivery) := by
      apply Action.calls_bind
      · apply calls_deliverEach
        · intro c hc
          exact Call.isOfDelivery_of_isOfBatch (Call.isOfBatch_of_isOfWindow hc)
        · intro event
          rfl
      · intro delivered
        exact Action.calls_ofCall rfl
    split
    · apply Action.calls_bind
      · exact Action.calls_note rfl
      · intro noted
        exact hdelivery
    · exact hdelivery

theorem calls_publishBatch (events : List Event) : (sink.publishBatch events).run.Calls (·.isOfBatch) := by
  apply Interaction.Calls.bind ((calls_handleBatch events).collecting #[] false)
  intro collected
  obtain ⟨ending, marked, finished⟩ := collected
  cases ending with
  | ok done => trivial
  | error failure =>
    by_cases hreported : failure.isReported <;> simp only [hreported, if_true] <;> trivial

end Equations

end Sink

/-- The whole goes on like the first part and, only where that returns, like the second one after it. -/
structure Chains {σ : Type} (world : World σ) (s : σ)
    (first second whole : Interaction (Except Failure Unit)) : Prop where
  returned : (Interaction.run world first s).1 = .ok () →
    Interaction.run world whole s = Interaction.run world second (Interaction.run world first s).2 ∧
    Interaction.history world whole s
      = Interaction.history world first s
        ++ Interaction.history world second (Interaction.run world first s).2
  failed : ∀ failure, (Interaction.run world first s).1 = .error failure →
    Interaction.run world whole s = (.error failure, (Interaction.run world first s).2) ∧
    Interaction.history world whole s = Interaction.history world first s

theorem chains_bind {σ : Type} (world : World σ) (s : σ) (first second : Action Unit) :
    Chains world s first.run second.run (first >>= fun _ => second).run := by
  constructor
  · intro hok
    exact Action.run_bind_of_ok hok
  · intro failure herror
    exact Action.run_bind_of_error herror

namespace Sink

section Unfinished
variable {sink : Sink} {destination : Text} {ws : List (List Event)}

theorem calls_deliverEach_ne_finish : (sink.deliverEach destination ws).run.Calls (· ≠ .finish) := by
  apply calls_deliverEach
  · intro c hc hfinish
    rw [hfinish] at hc
    cases hc
  · intro event hfinish
    cases hfinish

theorem unfinished_deliverEach :
    Interaction.unfinished (sink.deliverEach destination ws >>= fun _ => finishing).run
      = (sink.deliverEach destination ws).run := by
  rw [ExceptT.run_bind, Interaction.unfinished_bind,
    Interaction.unfinished_of_calls calls_deliverEach_ne_finish]
  refine Eq.trans (congrArg (_ >>= ·) (funext fun ending => ?_)) (Interaction.bind_done _)
  cases ending <;> rfl

/-- Where the finish is accepted, it changes nothing but that it is asked for. -/
theorem run_deliverEach_finishing {σ : Type} {world : World σ} (accepts : world.Accepts) (s : σ) :
    (Interaction.run world (sink.deliverEach destination ws >>= fun _ => finishing).run s).1
      = (Interaction.run world (sink.deliverEach destination ws).run s).1 ∧
    (Interaction.history world (sink.deliverEach destination ws >>= fun _ => finishing).run s).filter
        (!·.isFinish) = Interaction.history world (sink.deliverEach destination ws).run s := by
  have hdelivery : (Interaction.history world (sink.deliverEach destination ws).run s).filter (!·.isFinish)
      = Interaction.history world (sink.deliverEach destination ws).run s := by
    apply List.filter_eq_self.mpr
    intro x hx
    have hcall := calls_deliverEach_ne_finish.of_path (Interaction.path_run world _ s) x hx
    obtain ⟨call, answer⟩ := x
    cases call with
    | finish => exact absurd rfl hcall
    | _ => rfl
  cases hended : (Interaction.run world (sink.deliverEach destination ws).run s).1 with
  | ok delivered =>
    obtain ⟨hrun, hhistory⟩ := Action.run_bind_of_ok (f := fun _ => finishing) hended
    rw [hrun, hhistory, List.filter_append, hdelivery]
    constructor
    · have hfinish := accepts.finish (Interaction.run world (sink.deliverEach destination ws).run s).2
      simp [finishing, Action.ofCall, Interaction.perform, Interaction.run_call, hfinish, Except.mapError]
    · exact List.append_nil _
  | error failure =>
    obtain ⟨hrun, hhistory⟩ := Action.run_bind_of_error (f := fun _ => finishing) hended
    rw [hrun, hhistory]
    exact ⟨rfl, hdelivery⟩

end Unfinished

/-- A batch for one destination that is cut after full windows is delivered as its first part, which is left
unfinished, and then, unless that fails, its second part. The first part is left unfinished where it is
delivered in the same way and its finish is not asked for. -/
theorem handleBatch_append {σ : Type} (world : World σ) (s : σ) (sink : Sink) (xs ys : List Event)
    (destination : Text) (accepts : world.Accepts)
    (same : ∀ event ∈ xs ++ ys, event.destination = destination) (aligned : windowSize ∣ xs.length) :
    Chains world s (Interaction.unfinished (sink.handleBatch xs).run) (sink.handleBatch ys).run
      (sink.handleBatch (xs ++ ys)).run ∧
    (Interaction.run world (Interaction.unfinished (sink.handleBatch xs).run) s).1
      = (Interaction.run world (sink.handleBatch xs).run s).1 ∧
    Interaction.history world (Interaction.unfinished (sink.handleBatch xs).run) s
      = (Interaction.history world (sink.handleBatch xs).run s).filter (!·.isFinish) := by
  cases hopen : sink.isOpen with
  | false =>
    simp only [handleBatch_of_closed hopen]
    exact ⟨chains_bind world s (throw _) (throw _), rfl, rfl⟩
  | true =>
    have hfirst := handleBatch_of_same hopen fun event h => same event (List.mem_append_left ys h)
    have hsecond := handleBatch_of_same hopen fun event h => same event (List.mem_append_right xs h)
    have hwhole : sink.handleBatch (xs ++ ys) = (do
        sink.deliverEach destination (windows windowSize windowSize_pos xs)
        sink.handleBatch ys) := by
      rw [handleBatch_of_same hopen same, windows_append_of_dvd aligned, deliverEach_append,
        bind_assoc, hsecond]
    rw [hwhole, hfirst, unfinished_deliverEach]
    obtain ⟨hresult, hhistory⟩ := @run_deliverEach_finishing sink destination
      (windows windowSize windowSize_pos xs) σ world accepts s
    exact ⟨chains_bind world s _ _, hresult.symm, hhistory.symm⟩

/-- A full window and two events after it are delivered like two batches. -/
theorem fullWindow_append :
    World.playing.Accepts ∧ (∀ event ∈ fullWindow ++ keyedEvents, event.destination = []) ∧
    windowSize ∣ fullWindow.length ∧
    Chains World.playing fullWindowTaken (Interaction.unfinished (plain.handleBatch fullWindow).run)
      (plain.handleBatch keyedEvents).run (plain.handleBatch (fullWindow ++ keyedEvents)).run := by
  have hsame : ∀ event ∈ fullWindow ++ keyedEvents, event.destination = [] := by
    intro event hevent
    rcases List.mem_append.mp hevent with hfull | hkeyed
    · rw [List.eq_of_mem_replicate hfull]
    · simp only [keyedEvents, List.mem_cons, List.not_mem_nil, or_false] at hkeyed
      rcases hkeyed with rfl | rfl <;> rfl
  have hlength : fullWindow.length = windowSize := List.length_replicate
  have haligned : windowSize ∣ fullWindow.length := hlength.symm ▸ Nat.dvd_refl windowSize
  exact ⟨World.accepts_playing, hsame, haligned,
    (handleBatch_append World.playing fullWindowTaken plain _ _ [] World.accepts_playing hsame haligned).1⟩

end Sink

end EventDelivery

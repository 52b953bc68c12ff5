import EventDelivery.Proofs.Release
import EventDelivery.Proofs.Session

/-! The life of a sink. Its client is closed with the first operation that closes the sink, and never again. Up to
then every operation goes as the first one of a new sink would, and from then on nothing is asked of the outside. -/

namespace EventDelivery
open Interaction (Path)
set_option autoImplicit false

def Exchange.isClosing : Exchange → Bool
  | ⟨.close, _⟩ => true
  | _ => false

def closings (h : List Exchange) : Nat := h.countP Exchange.isClosing

theorem closings_append {h k : List Exchange} : closings (h ++ k) = closings h + closings k := List.countP_append

theorem closings_eq_zero {h : List Exchange} (hnone : ∀ x ∈ h, x.call ≠ .close) : closings h = 0 := by
  apply List.countP_eq_zero.mpr
  intro x hx hclosing
  have hcall := hnone x hx
  obtain ⟨c, answer⟩ := x
  cases c with
  | close => exact hcall rfl
  | _ => cases hclosing

namespace Sink

/-- What is asked of a sink: a block that it is used in may be left at its end or with a failure. -/
inductive Operation where
  | deliver (events : List Event)
  | publish (events : List Event)
  | close
  | leave (ending : Except Failure Unit)

inductive Reply where
  | ended (result : Except Failure Unit)
  | reported (result : Except Failure BatchReport)

namespace Operation

def isClosing : Operation → Bool
  | close | leave _ => true
  | deliver _ | publish _ => false

def lateReply : Operation → Reply
  | deliver _ => .ended (.error (.late .sinkClosed))
  | publish _ => .reported (.error (.late .sinkClosed))
  | close => .ended (.ok ())
  | leave ending => .ended ending

end Operation

def closes (operations : List Operation) : Bool := operations.any Operation.isClosing

@[simp] theorem closes_concat (operations : List Operation) (last : Operation) :
    closes (operations ++ [last]) = (closes operations || last.isClosing) := by
  simp [closes]

/-- How a sink is operated: leaving a block closes it, and passes on how the block ended. -/
def operate : Operation → Sink → Interaction (Reply × Sink)
  | .deliver events, sink => do return (.ended (← (sink.handleBatch events).run), sink)
  | .publish events, sink => do return (.reported (← (sink.publishBatch events).run), sink)
  | .close, sink => do return (.ended (.ok ()), ← sink.close)
  | .leave ending, sink => do return (.ended ending, ← sink.close)

section Operations
variable {sink : Sink} {operation : Operation}

theorem operate_of_isClosing (h : operation.isClosing = true) :
    operate operation sink = do return (operation.lateReply, ← sink.close) := by
  cases operation with
  | close | leave => rfl
  | deliver | publish => cases h

theorem operate_of_closed (closed : sink.isOpen = false) :
    operate operation sink = .done (operation.lateReply, sink) := by
  have hbatch := handleBatch_of_closed closed
  have hclose : sink.close = .done sink := by
    rw [close, closed]
    rfl
  cases operation with
  | deliver events =>
    rw [operate, hbatch]
    rfl
  | publish events =>
    rw [operate, publishBatch, hbatch]
    rfl
  | close | leave =>
    rw [operate_of_isClosing rfl, hclose]
    rfl

theorem path_operate_of_batch (batch : operation.isClosing = false) {t : List Exchange} {reply : Reply}
    {next : Sink} (h : Path (operate operation sink) t (reply, next)) : next = sink ∧ closings t = 0 := by
  have hnone {c : Call} (hc : c.isOfDelivery) : c ≠ .close := by
    rintro rfl
    cases hc
  cases operation with
  | deliver events =>
    obtain ⟨ending, t₁, t₂, hbatch, hdone, rfl⟩ := Interaction.path_bind_iff.mp h
    obtain ⟨rfl, hreply⟩ := Interaction.path_done_iff.mp hdone
    refine ⟨(Prod.mk.inj hreply).2, closings_eq_zero fun x hx => ?_⟩
    rw [List.append_nil] at hx
    exact hnone ((calls_handleBatch events).of_path hbatch x hx)
  | publish events =>
    obtain ⟨ending, t₁, t₂, hbatch, hdone, rfl⟩ := Interaction.path_bind_iff.mp h
    obtain ⟨rfl, hreply⟩ := Interaction.path_done_iff.mp hdone
    refine ⟨(Prod.mk.inj hreply).2, closings_eq_zero fun x hx => ?_⟩
    rw [List.append_nil] at hx
    exact hnone (Call.isOfDelivery_of_isOfBatch ((calls_publishBatch events).of_path hbatch x hx))
  | close | leave => cases batch

theorem closings_of_path_close (opened : sink.isOpen = true) {t : List Exchange} {closed : Sink}
    (h : Path sink.close t closed) :
    closed = { sink with isOpen := false } ∧ closings t = if sink.client.closable then 1 else 0 := by
  constructor
  · rw [close, if_pos opened] at h
    obtain ⟨ended, t₁, t₂, -, hdone, -⟩ := Interaction.path_bind_iff.mp h
    exact (Interaction.path_done_iff.mp hdone).2
  · rcases path_close opened h with ⟨hclosable, answer, rest, rfl, hrest⟩ | ⟨hclosable, rfl⟩
    · have hnone : closings rest = 0 :=
        closings_eq_zero fun x hx => Call.ne_close_of_isOutward (hrest x hx).1
      rw [hclosable, if_pos rfl, ← List.singleton_append, closings_append, hnone]
      rfl
    · rw [hclosable]
      rfl

end Operations

/-- What an open sink has come to in some turns: it is closed if one of them closed it, and its client was then
closed once. -/
structure Lived (sink : Sink) (turns : List (Turn Operation Reply)) (current : Sink) : Prop where
  current_eq : current = { sink with isOpen := !closes (turns.map Turn.operation) }
  closings_eq : closings (Session.exchanges turns)
    = if sink.client.closable && closes (turns.map Turn.operation) then 1 else 0

section Lives
variable {sink current next : Sink} {turns : List (Turn Operation Reply)} {operation : Operation}
  {t : List Exchange} {reply : Reply}

/-- Every operation closes the client where it closes the sink, and nowhere else. -/
theorem Lived.step (lived : Lived sink turns current) (h : Path (operate operation current) t (reply, next)) :
    Lived sink (turns ++ [⟨operation, t, reply⟩]) next := by
  obtain ⟨hcurrent, hclosings⟩ := lived
  have hcloses : closes ((turns ++ [(⟨operation, t, reply⟩ : Turn Operation Reply)]).map Turn.operation)
      = (closes (turns.map Turn.operation) || operation.isClosing) := by
    rw [List.map_append, List.map_singleton, closes_concat]
  cases hover : closes (turns.map Turn.operation) with
  | true =>
    have hclosed : current.isOpen = false := by simp [hcurrent, hover]
    rw [operate_of_closed hclosed] at h
    obtain ⟨rfl, hdone⟩ := Interaction.path_done_iff.mp h
    obtain ⟨rfl, rfl⟩ := Prod.mk.inj hdone
    rw [hover, Bool.true_or] at hcloses
    constructor
    · rw [hcloses, hcurrent, hover]
    · rw [Session.exchanges_concat, List.append_nil, hclosings, hcloses, hover]
  | false =>
    have hopen : current.isOpen = true := by simp [hcurrent, hover]
    rw [hover, Bool.and_false, if_neg Bool.false_ne_true] at hclosings
    rw [hover, Bool.false_or] at hcloses
    cases hclosing : operation.isClosing with
    | false =>
      obtain ⟨rfl, hnone⟩ := path_operate_of_batch hclosing h
      constructor
      · rw [hcloses, hclosing, hcurrent, hover]
      · rw [Session.exchanges_concat, closings_append, hclosings, hnone, hcloses, hclosing, Bool.and_false]
        rfl
    | true =>
      rw [operate_of_isClosing hclosing] at h
      obtain ⟨closed, t₁, t₂, hclose, hdone, rfl⟩ := Interaction.path_bind_iff.mp h
      obtain ⟨rfl, hreply⟩ := Interaction.path_done_iff.mp hdone
      obtain ⟨rfl, rfl⟩ := Prod.mk.inj hreply
      obtain ⟨rfl, hclient⟩ := closings_of_path_close hopen hclose
      rw [List.append_nil] at hcloses ⊢
      constructor
      · rw [hcloses, hclosing, hcurrent]
        rfl
      · rw [Session.exchanges_concat, closings_append, hclosings, hclient, hcloses, hclosing, Bool.and_true,
          hcurrent, Nat.zero_add]

end Lives

/-- The client of a sink is closed once, with the first operation that closes the sink, if there is something to
close. Until then each operation goes as the first one of a new sink would; from then on nothing is asked of the
outside, and batches are refused. Closing a sink never fails. -/
theorem life_of_sink {σ : Type} (sink : Sink) (opened : sink.isOpen = true)
    (steps : List (World σ × Operation)) (s : σ) :
    closings (Session.exchanges (Session.turns operate steps sink s))
      = (if sink.client.closable && closes (steps.map (·.2)) then 1 else 0) ∧
    ∀ (world : World σ) (operation : Operation),
      let (current, now) := Session.after operate steps sink s
      let next := Session.turn operate world operation current now
      (operation.isClosing → next.reply = operation.lateReply) ∧
      if closes (steps.map (·.2)) then next = ⟨operation, [], operation.lateReply⟩
      else ∀ fresh, make sink.client sink.nullKey sink.naming = .ok fresh →
        next = Session.turn operate world operation fresh now := by
  have hstart : Lived sink [] sink := by
    constructor
    · obtain ⟨client, nullKey, nullKey_ne, naming, isOpen⟩ := sink
      obtain rfl : isOpen = true := opened
      rfl
    · simp [closes, Session.exchanges, closings]
  obtain ⟨hcurrent, hclosings⟩ := Session.holds_after (fun lived h => lived.step h) hstart steps s
  rw [List.nil_append, Session.map_operation_turns] at hcurrent hclosings
  refine ⟨hclosings, fun world operation => ⟨fun hclosing => ?_, ?_⟩⟩
  · rw [Session.turn, operate_of_isClosing hclosing, Interaction.run_bind]
    rfl
  · split
    · rename_i hover
      have hclosed : (Session.after operate steps sink s).1.isOpen = false := by
        rw [hcurrent, hover]
        rfl
      rw [Session.turn, operate_of_closed hclosed]
      rfl
    · rename_i hopen
      intro fresh hfresh
      obtain ⟨-, rfl⟩ := make_eq_ok_iff.mp hfresh
      rw [hcurrent, Bool.eq_false_iff.mpr hopen]
      rfl

def brokenBlock : List (World (List Payload) × Operation) :=
  [(World.stubborn, .deliver keyedEvents), (World.stubborn, .leave (.error .cancelled))]

/-- The client is closed once, though that fails, and even a batch of nothing is refused afterwards. -/
theorem life_of_brokenBlock :
    let sink := plain.withClient ⟨"client", true⟩
    let (closed, s) := Session.after operate brokenBlock sink Service.neverTaken
    sink.isOpen = true ∧
    closings (Session.exchanges (Session.turns operate brokenBlock sink Service.neverTaken)) = 1 ∧
    Session.turn operate World.stubborn (.publish []) closed s
      = ⟨.publish [], [], .reported (.error (.late .sinkClosed))⟩ := by
  obtain ⟨hclosings, hnext⟩ := life_of_sink (plain.withClient ⟨"client", true⟩) rfl brokenBlock
    Service.neverTaken
  obtain ⟨-, hlate⟩ := hnext World.stubborn (.publish [])
  exact ⟨rfl, hclosings, hlate⟩

end Sink

end EventDelivery

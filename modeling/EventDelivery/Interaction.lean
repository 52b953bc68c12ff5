import EventDelivery.Notice
import EventDelivery.Outcome

/-! Interactions: computations that call the outside and go on with its answers. What the outside does
is a `World`, which may keep a state of any kind and answer in any way that the types allow. The
history of a run is the list of its calls, each with the answer it got. -/

namespace EventDelivery
set_option autoImplicit false

/-- A client of the stream service, which may have nothing to close. -/
structure Client where
  label : String
  closable : Bool
deriving DecidableEq

structure Connection where
  region : Text
  endpoint : Option Text
  profile : Option Text
deriving DecidableEq

structure Request where
  stream : Text
  entries : List Entry

/-- How a request ends that gets no response: with an answer of the service that is an error, without
any connection, or with a failure of another kind. A client knows none of the failures of this library and raises
none of them. -/
inductive RequestFailure where
  | service (response : Payload) (message : Text)
  | connection (message : Text)
  | other (fault : Fault)

/-- A length of time in seconds, as it was given. -/
inductive Seconds where
  | whole (n : Int)
  | double (x : Binary64)
deriving DecidableEq

def Seconds.isNegative : Seconds → Bool
  | whole n => n < 0
  | double x => x.isNegative

inductive Call where
  /-- make a client -/
  | connect (connection : Connection)
  /-- send a request through the client -/
  | send (request : Request)
  /-- hand records to a writer that is not part of this library -/
  | submit (destination : Text) (records : List Record)
  /-- wait between two attempts -/
  | sleep (duration : Seconds)
  /-- tell the committer that an event was processed -/
  | mark (event : Event)
  /-- tell the committer that its batch is finished -/
  | finish
  /-- close the client -/
  | close
  /-- tell a log -/
  | note (notice : Notice)

/-- The answer that a call gets. A sleep ends by itself or because the interaction is cancelled; of the other calls
none is told of a cancellation, and a request that is cut short leaves as any other failure of the client does. -/
def Call.Answer : Call → Type
  | connect _ => Except Fault Client
  | send _ => Except RequestFailure Payload
  | submit _ _ => Except Failure (List Result)
  | sleep _ => Except Unit Unit
  | mark _ => Except Fault Unit
  | finish => Except Fault Unit
  | close => Except Fault Unit
  | note _ => Unit

inductive Interaction (α : Type) where
  | done (a : α)
  | call (c : Call) (next : c.Answer → Interaction α)

namespace Interaction

variable {α β γ : Type}

def bind : Interaction α → (α → Interaction β) → Interaction β
  | done a, f => f a
  | call c next, f => call c fun answer => (next answer).bind f

instance : Monad Interaction where
  pure := done
  bind := bind

@[simp] theorem pure_eq (a : α) : (pure a : Interaction α) = done a := rfl

@[simp] theorem done_bind (a : α) (f : α → Interaction β) : done a >>= f = f a := rfl

@[simp] theorem call_bind (c : Call) (next : c.Answer → Interaction α) (f : α → Interaction β) :
    call c next >>= f = call c fun answer => next answer >>= f := rfl

theorem bind_done (p : Interaction α) : p >>= done = p := by
  induction p with
  | done a => rfl
  | call c next ih =>
    rw [call_bind]
    exact congrArg (call c) (funext ih)

theorem bind_assoc (p : Interaction α) (f : α → Interaction β) (g : β → Interaction γ) :
    p >>= f >>= g = p >>= fun a => f a >>= g := by
  induction p with
  | done a => rfl
  | call c next ih =>
    simp only [call_bind]
    exact congrArg (call c) (funext ih)

instance : LawfulMonad Interaction :=
  LawfulMonad.mk' Interaction (fun p => bind_done p) (fun _ _ => rfl) bind_assoc

def perform (c : Call) : Interaction c.Answer := call c done

end Interaction

/-- The outside: an answer to every call, from a state that it may change. -/
def World (σ : Type) := (c : Call) → σ → c.Answer × σ

structure Exchange where
  call : Call
  answer : call.Answer

namespace Interaction

variable {α β σ : Type}

def run (world : World σ) : Interaction α → σ → α × σ
  | done a, s => (a, s)
  | call c next, s =>
    let (answer, s) := world c s
    run world (next answer) s

/-- The calls of that run with their answers, in order. -/
def history (world : World σ) : Interaction α → σ → List Exchange
  | done _, _ => []
  | call c next, s =>
    let (answer, s) := world c s
    ⟨c, answer⟩ :: history world (next answer) s

@[simp] theorem run_done (world : World σ) (a : α) (s : σ) : run world (done a) s = (a, s) := rfl

@[simp] theorem history_done (world : World σ) (a : α) (s : σ) : history world (done a) s = [] := rfl

theorem run_call (world : World σ) (c : Call) (next : c.Answer → Interaction α) (s : σ) :
    run world (call c next) s = run world (next (world c s).1) (world c s).2 := rfl

theorem history_call (world : World σ) (c : Call) (next : c.Answer → Interaction α) (s : σ) :
    history world (call c next) s
      = ⟨c, (world c s).1⟩ :: history world (next (world c s).1) (world c s).2 := rfl

theorem run_bind (world : World σ) (p : Interaction α) (f : α → Interaction β) (s : σ) :
    run world (p >>= f) s = run world (f (run world p s).1) (run world p s).2 := by
  induction p generalizing s with
  | done a => rfl
  | call c next ih =>
    rw [call_bind, run_call, run_call, ih]

theorem history_bind (world : World σ) (p : Interaction α) (f : α → Interaction β) (s : σ) :
    history world (p >>= f) s
      = history world p s ++ history world (f (run world p s).1) (run world p s).2 := by
  induction p generalizing s with
  | done a => rfl
  | call c next ih =>
    rw [call_bind, history_call, history_call, run_call, ih, List.cons_append]

end Interaction

abbrev Action (α : Type) := ExceptT Failure Interaction α

namespace Action

variable {α : Type}

def ofExcept (result : Except Failure α) : Action α := ExceptT.mk (.done result)

def note (notice : Notice) : Action Unit := ExceptT.lift (Interaction.perform (.note notice))

/-- A call whose answer may be a failure of the outside. -/
def ofCall (c : Call) (read : c.Answer → Except Failure α) : Action α :=
  ExceptT.mk do return read (← Interaction.perform c)

end Action

end EventDelivery

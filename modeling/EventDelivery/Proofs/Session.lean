import EventDelivery.Proofs.Path

/-! Sessions. One thing is operated on again and again, each time in the world as it is then: an operation replies,
and it leaves the thing and the state of the world as the next one finds them. -/

namespace EventDelivery
open Interaction (Path)
set_option autoImplicit false

/-- An operation as it went: what was asked, what was exchanged meanwhile, and the reply. -/
structure Turn (ι ρ : Type) where
  operation : ι
  history : List Exchange
  reply : ρ

namespace Session

variable {ι ρ τ σ : Type} (operate : ι → τ → Interaction (ρ × τ))

def turn (world : World σ) (operation : ι) (thing : τ) (s : σ) : Turn ι ρ :=
  ⟨operation, Interaction.history world (operate operation thing) s,
    (Interaction.run world (operate operation thing) s).1.1⟩

def after : List (World σ × ι) → τ → σ → τ × σ
  | [], thing, s => (thing, s)
  | (world, operation) :: steps, thing, s =>
    let ((_, thing), s) := Interaction.run world (operate operation thing) s
    after steps thing s

def turns : List (World σ × ι) → τ → σ → List (Turn ι ρ)
  | [], _, _ => []
  | (world, operation) :: steps, thing, s =>
    let ((_, next), s') := Interaction.run world (operate operation thing) s
    turn operate world operation thing s :: turns steps next s'

def exchanges (turns : List (Turn ι ρ)) : List Exchange := turns.flatMap Turn.history

@[simp] theorem exchanges_concat (earlier : List (Turn ι ρ)) (last : Turn ι ρ) :
    exchanges (earlier ++ [last]) = exchanges earlier ++ last.history := by
  simp [exchanges]

variable {operate}

theorem map_operation_turns (steps : List (World σ × ι)) (thing : τ) (s : σ) :
    (turns operate steps thing s).map Turn.operation = steps.map (·.2) := by
  induction steps generalizing thing s with
  | nil => rfl
  | cons first steps ih => exact congrArg (first.2 :: ·) (ih _ _)

/-- What each operation keeps, of the turns so far and the thing that they left, holds after all of them. -/
theorem holds_after {holds : List (Turn ι ρ) → τ → Prop}
    (step : ∀ {earlier operation thing history reply next}, holds earlier thing →
      Path (operate operation thing) history (reply, next) →
      holds (earlier ++ [⟨operation, history, reply⟩]) next)
    {earlier : List (Turn ι ρ)} {thing : τ} (start : holds earlier thing) (steps : List (World σ × ι)) (s : σ) :
    holds (earlier ++ turns operate steps thing s) (after operate steps thing s).1 := by
  -- the turns are taken from the front, so the ones before them are carried along
  induction steps generalizing earlier thing s with
  | nil => rwa [turns, List.append_nil]
  | cons first steps ih =>
    obtain ⟨world, operation⟩ := first
    have hpath := Interaction.path_run world (operate operation thing) s
    have hrest := ih (step start hpath) (Interaction.run world (operate operation thing) s).2
    rwa [List.append_assoc] at hrest

end Session

end EventDelivery

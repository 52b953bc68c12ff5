import EventDelivery.Proofs.Feed
import EventDelivery.Proofs.Spelling

/-! Lines that are put together. A feed goes on where the one before it ended, unless that one was cut; lines of
blanks only move the numbers of the lines after them; and a line means the same with a line feed at its end, which
shows only where a line that is no JSON is quoted. -/

namespace EventDelivery
set_option autoImplicit false

namespace Json

end Json

namespace Feed

section Renumbering
variable {number : Nat} {lines : List String}

theorem Tells.badLine {feed : Feed} (h : Tells number lines feed) {failure : Failure}
    (cut : feed.failure = some failure) :
    ∃ n issues, failure = .badLine n issues ∧ number ≤ n ∧ n < number + lines.length := by
  cases h with
  | whole read => cases cut
  | @cut before after line events issues split read notBlank bad =>
    refine ⟨_, issues, (Option.some.inj cut).symm, Nat.le_add_right _ _, ?_⟩
    rw [split, List.length_append, List.length_cons]
    omega

end Renumbering

/-- The second feed is the first one, but for the line feed at the end of the bad line where it is quoted. -/
inductive Requoted : Feed → Feed → Prop where
  | same (feed : Feed) : Requoted feed feed
  | ended (events : List Event) (n : Nat) (line : String) :
      Requoted ⟨events, some (.badLine n [⟨none, .notJson line⟩])⟩
        ⟨events, some (.badLine n [⟨none, .notJson (line ++ "\n")⟩])⟩

theorem Requoted.cons {feed feed' : Feed} (h : feed.Requoted feed') (event : Event) :
    (cons event feed).Requoted (cons event feed') := by
  cases h with
  | same => exact .same _
  | ended events n line => exact .ended (event :: events) n line

section Separated

end Separated

end Feed

end EventDelivery

import EventDelivery.Proofs.Rounds

/-! What a budget of attempts buys. With a table of fates the ending of publishing is a number compared with
the budget: that of the attempt which confirms the last record. -/

namespace EventDelivery
set_option autoImplicit false

namespace Retry

def Fate.answer : Fate → List Record → Except Failure (List Result)
  | transport, _ => .error (.transport [] none)
  | failing positions, records => .ok (records.map fun record =>
      ⟨record, none, none, if positions record.position then some (Text.ofString "failed") else none, none⟩)

theorem Fate.answers_answer (fate : Fate) (records : List Record) :
    fate.Answers records (fate.answer records) := by
  cases fate with
  | transport => exact ⟨[], none, rfl⟩
  | failing positions =>
    refine ⟨_, rfl, ?_, ?_⟩
    · rw [List.map_map]
      exact List.map_id records
    · intro result hresult
      obtain ⟨record, -, rfl⟩ := List.mem_map.mp hresult
      cases positions record.position <;>
        simp [Result.succeeded, Outcome.succeeded, Text.ofString, Text.ofList]

end Retry

/-- A world with a writer that answers as the table says, in which nothing else goes wrong. Its state is the
number of attempts so far. -/
def World.fated (table : Nat → Retry.Fate) : World Nat
  | .submit _ records, made => ((table (made + 1)).answer records, made + 1)
  | .connect _, made => (.ok ⟨"", false⟩, made)
  | .send _, made => (.ok (.mapping false []), made)
  | .sleep _, made => (.ok (), made)
  | .mark _, made => (.ok (), made)
  | .finish, made => (.ok (), made)
  | .close, made => (.ok (), made)
  | .note _, made => ((), made)

namespace Retry

theorem obeys_fated {α : Type} (table : Nat → Fate) (p : Interaction α) (made : Nat) :
    Unhurried (Interaction.history (World.fated table) p made) ∧
      Obeys table made (Interaction.history (World.fated table) p made) := by
  induction p generalizing made with
  | done a => exact ⟨fun duration => List.not_mem_nil, fun i x hx => by cases hx⟩
  | call c next ih =>
    rw [Interaction.history_call]
    obtain ⟨hunhurried, hobeys⟩ := ih (World.fated table c made).1 (World.fated table c made).2
    constructor
    · intro duration hmem
      rcases List.mem_cons.mp hmem with heq | hmem
      · obtain ⟨rfl, hanswer⟩ := Exchange.mk.inj heq
        cases hanswer
      · exact hunhurried duration hmem
    · cases c with
      | submit destination records =>
        intro i x hx
        cases i with
        | zero =>
          obtain rfl := Option.some.inj hx
          exact Fate.answers_answer _ _
        | succ i =>
          have hnext : (table (made + 1 + i + 1)).Answers x.records x.answer := hobeys i x hx
          rwa [Nat.add_assoc made, Nat.add_comm 1] at hnext
      | _ => exact hobeys

/-- Fates of which the first is a failed request, and the second fails the record at position one. -/
def stumbling : Nat → Fate
  | 1 => .transport
  | 2 => .failing (· == 1)
  | _ => .failing fun _ => false

def twins : List Record := [⟨"k", by decide, .empty, 0⟩, ⟨"k", by decide, .empty, 1⟩]

theorem leftAfter_stumbling :
    leftAfter stumbling twins 1 = twins ∧ leftAfter stumbling twins 2 = [⟨"k", by decide, .empty, 1⟩] ∧
      leftAfter stumbling twins 3 = [] := by
  simp [leftAfter_succ, stumbling, twins, Fate.confirms]

theorem allConfirmedAt_stumbling : allConfirmedAt stumbling twins = 3 := by
  obtain ⟨-, htwo, hthree⟩ := leftAfter_stumbling
  exact allConfirmedAt_eq_succ (a := 2) (by simp [htwo]) hthree

section Endings
variable {σ : Type} (world : World σ) (s : σ) (policy : RetryPolicy) (destination : Text)
  (records : List Record)

/-- Publishing returns the attempt that confirms the last record, if that is within the budget, and tells
the positions of all records that are confirmed later or never otherwise. -/
theorem publish_eq_allConfirmedAt (table : Nat → Fate) (nonempty : records ≠ [])
    (unhurried : Unhurried (Interaction.history world (publish outer policy destination records).run s))
    (obeys : Obeys table 0 (Interaction.history world (publish outer policy destination records).run s)) :
    (allConfirmedAt table records ≤ policy.attempts →
      ∃ k : Nat, (k : ℕ∞) = allConfirmedAt table records ∧
        (Interaction.run world (publish outer policy destination records).run s).1 = .ok k) ∧
    ((policy.attempts : ℕ∞) < allConfirmedAt table records →
      (Interaction.run world (publish outer policy destination records).run s).1
        = .error (.delivery ⟨destination, policy.attempts,
          (records.filter fun record => (policy.attempts : ℕ∞) < confirmedAt table record).map
            fun record => (record.position : Int)⟩)) := by
  have hpath := Interaction.path_run world (publish outer policy destination records).run s
  have hcourse := course_of_publish nonempty hpath
  obtain ⟨hcloses, -⟩ := closing_of_course hcourse leftAfter_zero.symm nonempty unhurried obeys
  simp only [Nat.zero_add] at hcloses
  constructor
  · intro hle
    obtain ⟨hreturned, hall⟩ := hcloses.of_le hle
    exact ⟨_, hall, hreturned⟩
  · intro hlt
    exact (hcloses.of_lt hlt).1

/-- With three attempts the stumbling writer confirms both twins in the last one, and with two it leaves the
second of them. -/
theorem publish_stumbling :
    (Interaction.run (World.fated stumbling)
      (publish outer ⟨3, by decide, .whole 1⟩ [] twins).run 0).1 = .ok 3 ∧
    (Interaction.run (World.fated stumbling)
      (publish outer ⟨2, by decide, .whole 1⟩ [] twins).run 0).1 = .error (.delivery ⟨[], 2, [1]⟩) := by
  have hne : twins ≠ [] := List.cons_ne_nil _ _
  constructor
  · obtain ⟨hunhurried, hobeys⟩ := obeys_fated stumbling
      (publish outer ⟨3, by decide, .whole 1⟩ [] twins).run 0
    obtain ⟨hreturns, -⟩ := publish_eq_allConfirmedAt (World.fated stumbling) 0 ⟨3, by decide, .whole 1⟩
      [] twins stumbling hne hunhurried hobeys
    obtain ⟨k, hk, hreturned⟩ := hreturns (by rw [allConfirmedAt_stumbling]; rfl)
    rw [allConfirmedAt_stumbling] at hk
    have hthree : k = 3 := by exact_mod_cast hk
    rw [hreturned, hthree]
  · obtain ⟨hunhurried, hobeys⟩ := obeys_fated stumbling
      (publish outer ⟨2, by decide, .whole 1⟩ [] twins).run 0
    obtain ⟨-, hexhausts⟩ := publish_eq_allConfirmedAt (World.fated stumbling) 0 ⟨2, by decide, .whole 1⟩
      [] twins stumbling hne hunhurried hobeys
    have hleft : twins.filter (fun record => ((2 : Nat) : ℕ∞) < confirmedAt stumbling record)
        = [⟨"k", by decide, .empty, 1⟩] := leftAfter_stumbling.2.1
    have hspent : ((2 : Nat) : ℕ∞) < allConfirmedAt stumbling twins := by
      rw [allConfirmedAt_stumbling]
      exact_mod_cast Nat.lt_succ_self 2
    have hreport := congrArg (fun left : List Record => (Except.error (.delivery ⟨[], 2,
      left.map fun record => (record.position : Int)⟩) : Except Failure Nat)) hleft
    exact (hexhausts hspent).trans hreport

/-- What a writer outside is handed under a policy, and when. -/
structure Rounds (h : List Exchange) : Prop where
  /-- One pause of the interval lies between two rounds, and none before the first or after the last. -/
  alternate : deeds h = ((handovers h).map Handover.call).intersperse (.sleep policy.interval)
  within : (handovers h).length ≤ policy.attempts
  pauses : sleeps h = List.replicate ((handovers h).length - 1) policy.interval
  /-- Under a table of fates the rounds stop with the attempt that confirms the last record or with the
  budget, and each one carries the records that no round before it confirms. -/
  foretold : ∀ table : Nat → Fate, Obeys table 0 h →
    ((handovers h).length : ℕ∞) = min (policy.attempts : ℕ∞) (allConfirmedAt table records) ∧
    (handovers h).map Handover.call = (List.range (handovers h).length).map fun i =>
      .submit destination (records.filter fun record => ((i + 1 : Nat) : ℕ∞) ≤ confirmedAt table record)

/-- Whatever the writer answers, publishing goes in rounds when no pause is cut short. -/
theorem rounds_of_publish
    (unhurried : Unhurried (Interaction.history world (publish outer policy destination records).run s)) :
    Rounds policy destination records
      (Interaction.history world (publish outer policy destination records).run s) := by
  have hpath := Interaction.path_run world (publish outer policy destination records).run s
  generalize Interaction.history world (publish outer policy destination records).run s = h at *
  by_cases hempty : records = []
  · subst hempty
    obtain ⟨rfl, -⟩ := Interaction.path_done_iff.mp hpath
    exact ⟨rfl, Nat.zero_le _, rfl, fun table _ => ⟨by simp [allConfirmedAt, handovers], rfl⟩⟩
  have hcourse := course_of_publish hempty hpath
  obtain ⟨hdeeds, hlength, -⟩ := alternates_of_course hcourse unhurried
  refine ⟨hdeeds, hlength, ?_, ?_⟩
  · rw [← filterMap_duration?_deeds, hdeeds, filterMap_intersperse (f := Call.duration?) rfl, List.length_map]
    intro call hcall
    obtain ⟨x, -, rfl⟩ := List.mem_map.mp hcall
    rfl
  · intro table obeys
    obtain ⟨hcloses, hrounds⟩ := closing_of_course hcourse leftAfter_zero.symm hempty unhurried obeys
    simp only [Nat.zero_add] at hcloses
    constructor
    · rcases le_or_gt (allConfirmedAt table records) policy.attempts with hle | hlt
      · rw [min_eq_right hle, (hcloses.of_le hle).2]
      · rw [min_eq_left hlt.le, (hcloses.of_lt hlt).2]
    · rw [hrounds, List.range_eq_range']
      exact List.map_congr_left fun a _ => by rw [filter_le_confirmedAt]

/-- The stumbling writer gets both twins twice and then the second one, with a pause before each of the later
rounds. -/
theorem rounds_stumbling :
    deeds (Interaction.history (World.fated stumbling)
      (publish outer ⟨3, by decide, .whole 1⟩ [] twins).run 0)
      = [.submit [] twins, .sleep (.whole 1), .submit [] twins, .sleep (.whole 1),
        .submit [] [⟨"k", by decide, .empty, 1⟩]] := by
  obtain ⟨hunhurried, hobeys⟩ := obeys_fated stumbling
    (publish outer ⟨3, by decide, .whole 1⟩ [] twins).run 0
  obtain ⟨halternate, -, -, hforetold⟩ := rounds_of_publish (World.fated stumbling) 0
    ⟨3, by decide, .whole 1⟩ [] twins hunhurried
  obtain ⟨hlength, hcalls⟩ := hforetold stumbling hobeys
  have hthree : (handovers (Interaction.history (World.fated stumbling)
      (publish outer ⟨3, by decide, .whole 1⟩ [] twins).run 0)).length = 3 := by
    rw [allConfirmedAt_stumbling] at hlength
    exact_mod_cast hlength.trans (min_self _)
  obtain ⟨hone, htwo, -⟩ := leftAfter_stumbling
  rw [halternate, hcalls, hthree]
  simp only [filter_le_confirmedAt]
  simp [List.range_succ, hone, htwo]

end Endings

end Retry

end EventDelivery

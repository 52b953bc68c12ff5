import Mathlib.Data.ENat.Lattice
import Mathlib.Order.CompletePartialOrder
import EventDelivery.Retry

/-! Fates of attempts. A table tells of each attempt whether it fails as a whole or for which positions. The
attempt that confirms a record is the first one that does neither to it, and what is left after some
attempts are the records that are confirmed later or never. -/

namespace EventDelivery.Retry
set_option autoImplicit false

/-- What becomes of an attempt: it fails as a whole, or for the records at the positions that are told. -/
inductive Fate where
  | transport
  | failing (positions : Nat → Bool)

namespace Fate

def confirms : Fate → Record → Bool
  | transport, _ => false
  | failing positions, record => !positions record.position

/-- The answer of a writer to an attempt: a failed request, or one result for each record, in order. -/
def Answers : Fate → List Record → Except Failure (List Result) → Prop
  | transport, _, answer => ∃ message code, answer = .error (.transport message code)
  | failing positions, records, answer => ∃ results, answer = .ok results ∧
      results.map Result.record = records ∧
      ∀ result ∈ results, result.succeeded = !positions result.record.position

end Fate

section Tables
variable (table : Nat → Fate)

/-- The first attempt that confirms a record, counted from one; infinite if there is none. -/
noncomputable def confirmedAt (record : Record) : ℕ∞ :=
  ⨅ (a : Nat) (_ : 1 ≤ a ∧ (table a).confirms record), (a : ℕ∞)

/-- The attempt that confirms the last of some records. -/
noncomputable def allConfirmedAt (records : List Record) : ℕ∞ := ⨆ record ∈ records, confirmedAt table record

/-- The records that so many attempts leave, in their order. -/
noncomputable def leftAfter (records : List Record) (a : Nat) : List Record :=
  records.filter fun record => (a : ℕ∞) < confirmedAt table record

variable {table} {records : List Record} {record : Record} {a : Nat}

theorem lt_confirmedAt_iff : (a : ℕ∞) < confirmedAt table record ↔
    ∀ b, 1 ≤ b → b ≤ a → (table b).confirms record = false := by
  rw [← ENat.add_one_le_iff (ENat.natCast_ne_top a), confirmedAt, le_iInf₂_iff]
  constructor
  · intro h b hpos hle
    by_contra hne
    have hconfirms : (table b).confirms record = true := by simpa using hne
    have hlt : a + 1 ≤ b := by exact_mod_cast h b ⟨hpos, hconfirms⟩
    omega
  · intro h b hb
    obtain ⟨hpos, hconfirms⟩ := hb
    have hlt : a < b := by
      by_contra hle
      rw [h b hpos (Nat.le_of_not_lt hle)] at hconfirms
      cases hconfirms
    exact_mod_cast hlt

/-- One attempt more leaves what it does not confirm. -/
theorem succ_lt_confirmedAt_iff : ((a + 1 : Nat) : ℕ∞) < confirmedAt table record ↔
    (a : ℕ∞) < confirmedAt table record ∧ (table (a + 1)).confirms record = false := by
  rw [lt_confirmedAt_iff, lt_confirmedAt_iff]
  constructor
  · intro h
    exact ⟨fun b hpos hle => h b hpos (Nat.le_succ_of_le hle), h (a + 1) (Nat.succ_pos a) (Nat.le_refl _)⟩
  · rintro ⟨hbefore, hlast⟩ b hpos hle
    rcases Nat.lt_or_eq_of_le hle with hlt | rfl
    · exact hbefore b hpos (Nat.le_of_lt_succ hlt)
    · exact hlast

@[simp] theorem leftAfter_zero : leftAfter table records 0 = records := by
  apply List.filter_eq_self.mpr
  intro record _
  apply decide_eq_true
  apply lt_confirmedAt_iff.mpr
  intro b hpos hle
  omega

theorem leftAfter_succ : leftAfter table records (a + 1)
    = (leftAfter table records a).filter fun record => !(table (a + 1)).confirms record := by
  rw [leftAfter, leftAfter, List.filter_filter]
  apply List.filter_congr
  intro record _
  rw [Bool.eq_iff_iff, decide_eq_true_eq, succ_lt_confirmedAt_iff]
  simp [and_comm]

theorem leftAfter_eq_nil_iff : leftAfter table records a = [] ↔ allConfirmedAt table records ≤ a := by
  rw [leftAfter, List.filter_eq_nil_iff, allConfirmedAt, iSup₂_le_iff]
  simp

theorem allConfirmedAt_eq_succ (before : leftAfter table records a ≠ [])
    (all : leftAfter table records (a + 1) = []) : allConfirmedAt table records = (a + 1 : Nat) := by
  apply le_antisymm (leftAfter_eq_nil_iff.mp all)
  have hlt : (a : ℕ∞) < allConfirmedAt table records :=
    lt_of_not_ge fun hle => before (leftAfter_eq_nil_iff.mpr hle)
  rw [Nat.cast_succ]
  exact (ENat.add_one_le_iff (ENat.natCast_ne_top a)).mpr hlt

theorem filter_le_confirmedAt :
    (records.filter fun record => ((a + 1 : Nat) : ℕ∞) ≤ confirmedAt table record)
      = leftAfter table records a := by
  apply List.filter_congr
  intro record _
  rw [Bool.eq_iff_iff, decide_eq_true_eq, decide_eq_true_eq, Nat.cast_succ]
  exact ENat.add_one_le_iff (ENat.natCast_ne_top a)

end Tables

theorem Fate.map_record_failed {positions : Nat → Bool} {records : List Record} {results : List Result}
    (paired : results.map Result.record = records)
    (told : ∀ result ∈ results, result.succeeded = !positions result.record.position) :
    (failed results).map Result.record
      = records.filter fun record => !(Fate.failing positions).confirms record := by
  subst paired
  rw [List.filter_map, failed]
  refine congrArg (List.map Result.record) (List.filter_congr fun result hresult => ?_)
  simp [told result hresult, Fate.confirms]

end EventDelivery.Retry

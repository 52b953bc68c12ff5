import EventDelivery.Proofs.Digits
import EventDelivery.Proofs.Except
import EventDelivery.Validation.Field

/-! Integers in text. The numeral of an integer within the limit of digits is read as that integer, and an
integer beyond the limit is never read from text. -/

namespace EventDelivery
set_option autoImplicit false

namespace Numeral

section Digits
variable {ds : List Char} (digits : ∀ c ∈ ds, c.isDigit) (nonempty : ds ≠ [])
  (zero : ds.head? = some '0' → ds = ['0']) (within : ds.length ≤ digitLimit)
include digits nonempty zero within

/-- Digits spell an integer, also after a minus, unless a zero stands in front of others. -/
theorem canonical?_of_digits :
    canonical? ds = .ok (some (digitsValue ds)) ∧ canonical? ('-' :: ds) = .ok (some (-(digitsValue ds : Int))) := by
  by_cases hzero : ds.head? = some '0'
  · obtain rfl := zero hzero
    exact ⟨rfl, rfl⟩
  · have htake : ds.takeWhile Char.isDigit = ds := List.takeWhile_eq_self_iff.mpr digits
    have hempty : ds.isEmpty = false := List.isEmpty_eq_false_iff.mpr nonempty
    have hminus : ∀ body, ds ≠ '-' :: body := by
      rintro body rfl
      exact absurd (digits '-' List.mem_cons_self) (by decide)
    constructor
    · unfold canonical?
      split
      rename_i negative body heq
      split at heq
      · rename_i body'
        exact absurd rfl (hminus body')
      · obtain ⟨rfl, rfl⟩ := Prod.mk.inj heq
        simp only [htake, hempty, hzero, if_false, if_neg (Nat.not_lt.mpr within), if_neg (Nat.lt_irrefl _)]
        rfl
    · simp only [canonical?, htake, hempty, hzero, if_false, if_neg (Nat.not_lt.mpr within),
        if_neg (Nat.lt_irrefl _)]
      rfl

end Digits

theorem canonical?_integerDigits {n : Int} (within : withinDigitLimit n) :
    canonical? (integerDigits n) = .ok (some n) := by
  have hnat (m : Nat) (hm : m < 10 ^ digitLimit) :=
    canonical?_of_digits (fun _ => isDigit_of_mem_decimalDigits) (decimalDigits_ne_nil m)
      (fun hzero => by rw [eq_zero_of_head?_decimalDigits hzero]; rfl) (length_decimalDigits_le hm)
  have habs := withinDigitLimit_iff.mp within
  cases n with
  | ofNat m =>
    obtain ⟨hplus, -⟩ := hnat m habs
    rwa [digitsValue_decimalDigits] at hplus
  | negSucc m =>
    obtain ⟨-, hminus⟩ := hnat (m + 1) habs
    rwa [digitsValue_decimalDigits] at hminus

theorem withinDigitLimit_of_canonical? {s : List Char} {n : Int} (h : canonical? s = .ok (some n)) :
    withinDigitLimit n := by
  unfold canonical? at h
  split at h
  rename_i negative body _
  dsimp only at h
  split at h
  · cases h
  · split at h
    · split at h
      · obtain rfl := Option.some.inj (Except.ok.inj h)
        exact withinDigitLimit_iff.mpr (Nat.pow_pos (by decide))
      · cases h
    · split at h
      · cases h
      · rename_i hlimit
        split at h
        · cases h
        · have hdigits : digitsValue (body.takeWhile Char.isDigit) < 10 ^ digitLimit :=
            Nat.lt_of_lt_of_le (digitsValue_lt fun c hc => by simpa using List.mem_takeWhile_imp hc)
              (Nat.pow_le_pow_right (by decide) (Nat.le_of_not_lt hlimit))
          obtain rfl := Option.some.inj (Except.ok.inj h)
          rw [withinDigitLimit_iff]
          cases negative
          · exact hdigits
          · rw [if_pos rfl, Int.natAbs_neg]
            exact hdigits

theorem read_integerDigits {n : Int} (within : withinDigitLimit n) : read (integerDigits n) = .ok n := by
  rw [read, canonical?_integerDigits within]
  rfl

theorem withinDigitLimit_of_read {s : List Char} {n : Int} (h : read s = .ok n) : withinDigitLimit n := by
  obtain ⟨found, hfound, h⟩ := bind_eq_ok_iff.mp h
  cases found with
  | some m =>
    obtain rfl := Except.ok.inj h
    exact withinDigitLimit_of_canonical? hfound
  | none =>
    dsimp only at h
    split at h
    · rename_i m hcleaned
      obtain rfl := Except.ok.inj h
      obtain ⟨cleaned, -, hm⟩ := Option.map_eq_some_iff.mp hcleaned
      exact withinDigitLimit_of_canonical? hm
    · cases h

end Numeral

namespace Field

theorem integer_integerDigits {n : Int} (within : withinDigitLimit n) :
    integer (.text (Text.ofList (integerDigits n))) = .ok n := by
  rw [integer, Text.chars?_ofList]
  exact Numeral.read_integerDigits within

theorem withinDigitLimit_of_integer_text {t : Text} {n : Int} (h : integer (.text t) = .ok n) :
    withinDigitLimit n := by
  rw [integer] at h
  split at h
  · exact Numeral.withinDigitLimit_of_read h
  · cases h

end Field

end EventDelivery

import EventDelivery.Json.Token
import EventDelivery.Proofs.Wording
import Mathlib.Algebra.Group.Nat.Defs
import Mathlib.Data.List.TakeWhile

/-! Integers in decimal digits. A document spells an integer by its digits and reads it back from them,
and of any whole number that it reads the digits are within the limit. -/

namespace EventDelivery
set_option autoImplicit false

theorem isDigit_of_mem_decimalDigits {n : Nat} {c : Char} (h : c ∈ decimalDigits n) : c.isDigit :=
  Nat.isDigit_of_mem_toDigits (by decide) (by decide) h

theorem digitsValue_eq_ofDigitChars (cs : List Char) : digitsValue cs = Nat.ofDigitChars 10 cs 0 := by
  rw [Nat.ofDigitChars_eq_foldl, digitsValue]
  refine congrArg (fun step => cs.foldl step 0) (funext fun n => funext fun c => ?_)
  rw [Nat.mul_comm]
  rfl

@[simp] theorem digitsValue_decimalDigits (n : Nat) : digitsValue (decimalDigits n) = n := by
  rw [digitsValue_eq_ofDigitChars, decimalDigits, Nat.ofDigitChars_ten_toDigits]

theorem toNat_sub_lt_of_isDigit {c : Char} (h : c.isDigit) : c.toNat - 48 < 10 := by
  simp only [Char.isDigit, ge_iff_le, Bool.and_eq_true, decide_eq_true_eq, UInt32.le_iff_toNat_le] at h
  have hval : c.toNat = c.val.toNat := rfl
  have hnine : '9'.val.toNat = 57 := rfl
  omega

theorem digitsValue_lt {cs : List Char} (h : ∀ c ∈ cs, c.isDigit) : digitsValue cs < 10 ^ cs.length := by
  -- for any value that the digits before have: each digit multiplies it by ten and adds less than ten
  have hfrom (n : Nat) : cs.foldl (fun n c => n * 10 + (c.toNat - 48)) n < (n + 1) * 10 ^ cs.length := by
    induction cs generalizing n with
    | nil => simp
    | cons c cs ih =>
      have hc := toNat_sub_lt_of_isDigit (h c List.mem_cons_self)
      have hcs := ih (fun d hd => h d (List.mem_cons_of_mem c hd)) (n * 10 + (c.toNat - 48))
      have hstep : (n * 10 + (c.toNat - 48) + 1) * 10 ^ cs.length ≤ (n + 1) * 10 * 10 ^ cs.length :=
        Nat.mul_le_mul_right _ (by omega)
      rw [List.foldl_cons, List.length_cons, Nat.pow_succ', ← Nat.mul_assoc]
      omega
  have hzero := hfrom 0
  rwa [Nat.zero_add, Nat.one_mul] at hzero

theorem eq_zero_of_head?_decimalDigits {n : Nat} (h : (decimalDigits n).head? = some '0') : n = 0 := by
  induction n using Nat.strongRecOn with
  | ind n ih =>
    rw [decimalDigits, Nat.toDigits_eq_if (by decide)] at h
    split at h
    · simpa using h
    · -- the digits of `n / 10` come first
      rename_i hlarge
      have hfirst : (decimalDigits (n / 10)).head? = some '0' := by
        cases hd : Nat.toDigits 10 (n / 10) with
        | nil => exact absurd hd Nat.toDigits_ne_nil
        | cons d ds => simpa [decimalDigits, hd] using h
      have hshort := ih (n / 10) (by omega) hfirst
      omega

theorem withinDigitLimit_iff {n : Int} : withinDigitLimit n ↔ n.natAbs < 10 ^ digitLimit := by
  rw [withinDigitLimit, decide_eq_true_eq, Nat.pow_eq]

theorem length_decimalDigits_le {n : Nat} (h : n < 10 ^ digitLimit) :
    (decimalDigits n).length ≤ digitLimit :=
  (Nat.length_toDigits_le_iff (by decide) (by decide)).mpr h

namespace Json

section Releases
variable [Release]

theorem length_le_countedDigits (negative : Bool) (ds : List Char) : ds.length ≤ countedDigits negative ds := by
  unfold countedDigits
  split <;> omega

section Whole
variable {ds : List Char} (digits : ∀ c ∈ ds, c.isDigit) (nonempty : ds ≠ [])
  (zero : ds.head? = some '0' → ds.length = 1)
include nonempty zero

theorem wellFormed_digits {negative : Bool} (within : countedDigits negative ds ≤ digitLimit) :
    (ds.isEmpty || (ds.head? = some '0' && 1 < ds.length) || digitLimit < countedDigits negative ds) = false := by
  simp only [Bool.or_eq_false_iff, List.isEmpty_eq_false_iff, Bool.and_eq_false_iff, decide_eq_false_iff_not]
  refine ⟨⟨nonempty, ?_⟩, by omega⟩
  by_cases hzero : ds.head? = some '0'
  · exact .inr (by rw [zero hzero]; decide)
  · exact .inl hzero

include digits

theorem number?_of_digits (within : countedDigits false ds ≤ digitLimit) :
    number? ds = some (int (digitsValue ds)) := by
  have htake : ds.takeWhile Char.isDigit = ds := List.takeWhile_eq_self_iff.mpr digits
  have hdrop : ds.dropWhile Char.isDigit = [] := List.dropWhile_eq_nil_iff.mpr digits
  have hwell := wellFormed_digits nonempty zero within
  cases ds with
  | nil => exact absurd rfl nonempty
  | cons d ds =>
    have hminus : d ≠ '-' := by
      rintro rfl
      exact absurd (digits '-' List.mem_cons_self) (by decide)
    unfold number?
    split
    rename_i negative body heq
    split at heq
    · rename_i hsplit
      exact absurd (List.cons.inj hsplit).1 hminus
    · obtain ⟨rfl, rfl⟩ := Prod.mk.inj heq
      simp only [htake, hdrop, hwell]
      rfl

theorem number?_of_minus (within : countedDigits true ds ≤ digitLimit) :
    number? ('-' :: ds) = some (int (-(digitsValue ds : Int))) := by
  have htake : ds.takeWhile Char.isDigit = ds := List.takeWhile_eq_self_iff.mpr digits
  have hdrop : ds.dropWhile Char.isDigit = [] := List.dropWhile_eq_nil_iff.mpr digits
  simp only [number?, htake, hdrop, wellFormed_digits nonempty zero within]
  rfl

end Whole

/-- An integer within the limit of digits is read from them, unless it is negative and its sign is one too many. -/
def Readable (n : Int) : Prop :=
  withinDigitLimit n ∧ (n < 0 → Release.signCounts → n.natAbs < 10 ^ (digitLimit - 1))

theorem countedDigits_decimalDigits_le {m : Nat} (h : Readable (Int.negSucc m)) :
    countedDigits true (decimalDigits (m + 1)) ≤ digitLimit := by
  obtain ⟨within, signed⟩ := h
  unfold countedDigits
  split
  · rename_i hcounts
    have hlength : (decimalDigits (m + 1)).length ≤ digitLimit - 1 :=
      (Nat.length_toDigits_le_iff (by decide) (by decide)).mpr (signed (Int.negSucc_lt_zero m) hcounts)
    have hpositive : 0 < digitLimit := by decide
    omega
  · exact length_decimalDigits_le (withinDigitLimit_iff.mp within)

theorem number?_integerDigits {n : Int} (h : Readable n) : number? (integerDigits n) = some (int n) := by
  have hzero {m : Nat} (hzero : (decimalDigits m).head? = some '0') : (decimalDigits m).length = 1 := by
    rw [eq_zero_of_head?_decimalDigits hzero]
    rfl
  cases n with
  | ofNat m =>
    have hread := number?_of_digits (fun _ => isDigit_of_mem_decimalDigits) (decimalDigits_ne_nil m) hzero
      (length_decimalDigits_le (withinDigitLimit_iff.mp h.1))
    rwa [digitsValue_decimalDigits] at hread
  | negSucc m =>
    have hread := number?_of_minus (fun _ => isDigit_of_mem_decimalDigits) (decimalDigits_ne_nil (m + 1)) hzero
      (countedDigits_decimalDigits_le h)
    rwa [digitsValue_decimalDigits] at hread

theorem number?_of_beyond {ds : List Char} (digits : ∀ c ∈ ds, c.isDigit)
    (beyond : digitLimit < countedDigits true ds) : number? ('-' :: ds) = none := by
  have htake : ds.takeWhile Char.isDigit = ds := List.takeWhile_eq_self_iff.mpr digits
  simp only [number?, htake, decide_eq_true beyond, Bool.or_true, if_true]

theorem number?_integerDigits_eq_none {n : Int} (within : withinDigitLimit n) (h : ¬ Readable n) :
    number? (integerDigits n) = none := by
  have hsigned : n < 0 ∧ Release.signCounts ∧ 10 ^ (digitLimit - 1) ≤ n.natAbs := by
    simpa only [Readable, within, true_and, Classical.not_imp, Nat.not_lt] using h
  obtain ⟨hnegative, hcounts, hlarge⟩ := hsigned
  cases n with
  | ofNat m => exact absurd hnegative (by simp)
  | negSucc m =>
    have hlength : digitLimit - 1 < (decimalDigits (m + 1)).length :=
      Nat.lt_of_not_le fun hshort =>
        Nat.not_lt.mpr hlarge ((Nat.length_toDigits_le_iff (by decide) (by decide)).mp hshort)
    have hcounted : countedDigits true (decimalDigits (m + 1)) = (decimalDigits (m + 1)).length + 1 := by
      rw [countedDigits, hcounts, Bool.and_self, if_pos rfl]
    exact number?_of_beyond (fun _ => isDigit_of_mem_decimalDigits) (by omega)

/-- A number that is read is a double, or an integer within the limit of digits. -/
theorem number?_eq_some {word : List Char} {value : Json} (h : number? word = some value) :
    (∃ n, value = int n ∧ withinDigitLimit n) ∨ ∃ x, value = float x := by
  unfold number? at h
  split at h
  rename_i negative body _
  dsimp only at h
  split at h
  · cases h
  · rename_i hwell
    split at h
    · left
      refine ⟨_, (Option.some.inj h).symm, ?_⟩
      have hlength : (body.takeWhile Char.isDigit).length ≤ digitLimit := by
        simp only [Bool.or_eq_true, decide_eq_true_eq, not_or] at hwell
        have hcounted := length_le_countedDigits negative (body.takeWhile Char.isDigit)
        omega
      have hvalue := digitsValue_lt fun c (hc : c ∈ body.takeWhile Char.isDigit) => by
        simpa using List.mem_takeWhile_imp hc
      have hlimit := Nat.lt_of_lt_of_le hvalue (Nat.pow_le_pow_right (by decide) hlength)
      rw [withinDigitLimit_iff]
      cases negative
      · exact hlimit
      · rw [if_pos rfl, Int.natAbs_neg]
        exact hlimit
    · split at h
      · cases h
      · obtain ⟨p, -, rfl⟩ := Option.map_eq_some_iff.mp h
        exact .inr ⟨_, rfl⟩
    · obtain ⟨p, -, rfl⟩ := Option.map_eq_some_iff.mp h
      exact .inr ⟨_, rfl⟩

/-- Exactly the readable integers are read from their digits. -/
theorem number?_integerDigits_eq_some_iff {n : Int} :
    number? (integerDigits n) = some (int n) ↔ Readable n := by
  refine ⟨fun h => ?_, number?_integerDigits⟩
  have within : withinDigitLimit n := by
    rcases number?_eq_some h with ⟨m, heq, within⟩ | ⟨x, heq⟩
    · obtain rfl := Json.int.inj heq
      exact within
    · cases heq
  by_contra hbeyond
  rw [number?_integerDigits_eq_none within hbeyond] at h
  cases h

end Releases

end Json

end EventDelivery

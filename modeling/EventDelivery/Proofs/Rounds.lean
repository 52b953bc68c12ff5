import EventDelivery.Proofs.Fate
import EventDelivery.Proofs.Publication

/-! The rounds of publishing through a writer outside: what it is handed, and the pauses between. Under a
table of fates the rounds are known beforehand, each by the records that are left before it, and so is
how they end. -/

namespace EventDelivery
open Interaction (Path)
set_option autoImplicit false

/-- Records that a writer outside was handed, with its answer. -/
structure Handover where
  destination : Text
  records : List Record
  answer : Except Failure (List Result)

def Handover.call (x : Handover) : Call := .submit x.destination x.records

namespace Call

def isNote : Call → Bool
  | note _ => true
  | _ => false

def duration? : Call → Option Seconds
  | sleep duration => some duration
  | _ => none

end Call

def Exchange.handover? : Exchange → Option Handover
  | ⟨.submit destination records, answer⟩ => some ⟨destination, records, answer⟩
  | _ => none

def handovers (h : List Exchange) : List Handover := h.filterMap Exchange.handover?

/-- What is asked of the outside, notices apart. -/
def deeds (h : List Exchange) : List Call := (h.map Exchange.call).filter (!·.isNote)

def sleeps (h : List Exchange) : List Seconds := (h.map Exchange.call).filterMap Call.duration?

/-- No pause is cut short. -/
def Unhurried (h : List Exchange) : Prop := ∀ duration, (⟨.sleep duration, .error ()⟩ : Exchange) ∉ h

section Views
variable {h k : List Exchange}

@[simp] theorem handovers_append : handovers (h ++ k) = handovers h ++ handovers k :=
  List.filterMap_append

@[simp] theorem deeds_append : deeds (h ++ k) = deeds h ++ deeds k := by
  rw [deeds, List.map_append, List.filter_append, ← deeds, ← deeds]

theorem filterMap_duration?_deeds (h : List Exchange) :
    (deeds h).filterMap Call.duration? = sleeps h := by
  rw [deeds, sleeps, List.filterMap_filter]
  refine List.filterMap_congr fun call _ => ?_
  cases call <;> rfl

theorem Unhurried.right (hk : Unhurried (h ++ k)) : Unhurried k :=
  fun duration hmem => hk duration (List.mem_append_right h hmem)

end Views

theorem filterMap_intersperse {α β : Type} {f : α → Option β} {separator : α} {b : β} {xs : List α}
    (told : f separator = some b) (untold : ∀ x ∈ xs, f x = none) :
    (xs.intersperse separator).filterMap f = List.replicate (xs.length - 1) b := by
  induction xs with
  | nil => rfl
  | cons x xs ih =>
    have hx : f x = none := untold x List.mem_cons_self
    cases xs with
    | nil => simp [hx]
    | cons y ys =>
      have hrest := ih fun z hz => untold z (List.mem_cons_of_mem x hz)
      rw [List.intersperse_cons_cons, List.filterMap_cons_none hx, List.filterMap_cons_some told, hrest]
      rfl

namespace Retry

def outer : Submission := fun destination records =>
  Action.ofCall (.submit destination records) fun answer : Except Failure (List Result) => answer

section Courses
variable {interval : Seconds} {destination : Text} {left made : Nat} {pending : List Record}
  {t : List Exchange} {r : Except Failure Nat}

theorem path_outer_iff {reply : Except Failure (List Result)} :
    Path (outer destination pending).run t reply ↔ t = [⟨.submit destination pending, reply⟩] := by
  constructor
  · intro h
    obtain ⟨answer, rfl, rfl⟩ := Action.path_ofCall_iff.mp h
    rfl
  · rintro rfl
    exact Action.path_ofCall_iff.mpr ⟨reply, rfl, rfl⟩

/-- Whatever the writer answers, one pause of the interval lies between two rounds and none elsewhere, and
there are no more rounds than attempts are left. -/
theorem alternates_of_course (h : Course outer interval destination left made pending t r)
    (unhurried : Unhurried t) :
    deeds t = ((handovers t).map Handover.call).intersperse (.sleep interval) ∧
      (handovers t).length ≤ left ∧ (0 < left → handovers t ≠ []) := by
  induction h with
  | exhausted => exact ⟨rfl, Nat.le_refl 0, fun hpos => absurd hpos (Nat.lt_irrefl 0)⟩
  | confirmed replied _ | broken replied _ =>
    obtain rfl := path_outer_iff.mp replied
    exact ⟨rfl, Nat.succ_le_succ (Nat.zero_le _), fun _ => List.cons_ne_nil _ _⟩
  | cancelled => exact absurd (by simp) (unhurried interval)
  | @again left made pending rest t u reply notice r replied asked later ih =>
    obtain rfl := path_outer_iff.mp replied
    obtain ⟨hdeeds, hlength, hsome⟩ := ih unhurried.right
    cases left with
    | zero =>
      have hnone : handovers u = [] := List.eq_nil_of_length_eq_zero (Nat.le_zero.mp hlength)
      rw [hnone] at hdeeds
      have hall : handovers ([⟨.submit destination pending, reply⟩] ++
          ⟨.note notice, ()⟩ :: pauses interval 0 ++ u) = [⟨destination, pending, reply⟩] := by
        rw [handovers_append, hnone]
        rfl
      rw [hall, deeds_append, hdeeds]
      exact ⟨rfl, Nat.le_refl 1, fun _ => List.cons_ne_nil _ _⟩
    | succ left =>
      obtain ⟨next, more, hmore⟩ := List.exists_cons_of_ne_nil (hsome (Nat.succ_pos left))
      have hall : handovers ([⟨.submit destination pending, reply⟩] ++
          ⟨.note notice, ()⟩ :: pauses interval (left + 1) ++ u)
          = ⟨destination, pending, reply⟩ :: next :: more := by
        rw [handovers_append, hmore]
        rfl
      rw [hmore] at hdeeds hlength
      rw [hall, deeds_append, hdeeds]
      exact ⟨rfl, Nat.succ_le_succ hlength, fun _ => List.cons_ne_nil _ _⟩

end Courses

/-- The writer answers its rounds with the fates of the table, from the attempt after those made. -/
def Obeys (table : Nat → Fate) (made : Nat) (h : List Exchange) : Prop :=
  ∀ i x, (handovers h)[i]? = some x → (table (made + i + 1)).Answers x.records x.answer

/-- How publishing ends after so many attempts: the last one left nothing, or the budget is spent and
something is left. -/
inductive Closing (table : Nat → Fate) (destination : Text) (records : List Record) (budget : Nat) :
    Nat → Except Failure Nat → Prop where
  | confirmed {a : Nat} (within : a + 1 ≤ budget) (before : leftAfter table records a ≠ [])
      (all : leftAfter table records (a + 1) = []) :
      Closing table destination records budget (a + 1) (.ok (a + 1))
  | exhausted (some : leftAfter table records budget ≠ []) :
      Closing table destination records budget budget (.error (.delivery ⟨destination, budget,
        (leftAfter table records budget).map fun record => (record.position : Int)⟩))

namespace Closing
variable {table : Nat → Fate} {destination : Text} {records : List Record} {budget n : Nat}
  {r : Except Failure Nat}

theorem of_le (h : Closing table destination records budget n r)
    (hle : allConfirmedAt table records ≤ budget) : r = .ok n ∧ (n : ℕ∞) = allConfirmedAt table records := by
  cases h with
  | confirmed within before all => exact ⟨rfl, (allConfirmedAt_eq_succ before all).symm⟩
  | exhausted some => exact absurd (leftAfter_eq_nil_iff.mpr hle) some

theorem of_lt (h : Closing table destination records budget n r)
    (hlt : (budget : ℕ∞) < allConfirmedAt table records) :
    r = .error (.delivery ⟨destination, budget,
      (leftAfter table records budget).map fun record => (record.position : Int)⟩) ∧ n = budget := by
  cases h with
  | confirmed within before all =>
    rw [allConfirmedAt_eq_succ before all, Nat.cast_lt] at hlt
    exact absurd within (Nat.not_le_of_lt hlt)
  | exhausted some => exact ⟨rfl, rfl⟩

end Closing

section Fates
variable {table : Nat → Fate} {interval : Seconds} {destination : Text} {records pending : List Record}
  {left made : Nat} {t : List Exchange} {r : Except Failure Nat}

theorem Obeys.first {reply : Except Failure (List Result)} {u : List Exchange}
    (h : Obeys table made (⟨.submit destination pending, reply⟩ :: u)) :
    (table (made + 1)).Answers pending reply :=
  h 0 ⟨destination, pending, reply⟩ rfl

theorem Fate.Answers.left_of_confirmed {fate : Fate} {results : List Result}
    (answers : fate.Answers pending (.ok results)) (all : failed results = []) :
    (pending.filter fun record => !fate.confirms record) = [] := by
  cases fate with
  | transport =>
    obtain ⟨message, code, hanswer⟩ := answers
    cases hanswer
  | failing positions =>
    obtain ⟨results', hanswer, paired, told⟩ := answers
    obtain rfl := Except.ok.inj hanswer
    rw [← Fate.map_record_failed paired told, all, List.map_nil]

theorem Fate.Answers.left_of_again? {fate : Fate} {reply : Except Failure (List Result)}
    {rest : List Record} (answers : fate.Answers pending reply) (asked : again? pending reply = some rest) :
    rest = pending.filter fun record => !fate.confirms record := by
  cases fate with
  | transport =>
    obtain ⟨message, code, rfl⟩ := answers
    obtain rfl := Option.some.inj asked
    simp [Fate.confirms]
  | failing positions =>
    obtain ⟨results, rfl, paired, told⟩ := answers
    have hasked : (if (failed results).isEmpty then none
        else some ((failed results).map Result.record)) = some rest := asked
    rw [← Fate.map_record_failed paired told]
    split at hasked
    · cases hasked
    · exact (Option.some.inj hasked).symm

theorem Fate.Answers.again?_ne_none {fate : Fate} {failure : Failure}
    (answers : fate.Answers pending (.error failure)) : again? pending (.error failure) ≠ none := by
  cases fate with
  | transport =>
    obtain ⟨message, code, hanswer⟩ := answers
    obtain rfl := Except.error.inj hanswer
    exact Option.some_ne_none pending
  | failing positions =>
    obtain ⟨results, hanswer, -⟩ := answers
    cases hanswer

/-- The rounds of a course are those that the table foretells, and it ends as the table foretells. -/
theorem closing_of_course (h : Course outer interval destination left made pending t r)
    (remaining : pending = leftAfter table records made) (nonempty : pending ≠ [])
    (unhurried : Unhurried t) (obeys : Obeys table made t) :
    Closing table destination records (made + left) (made + (handovers t).length) r ∧
      (handovers t).map Handover.call = (List.range' made (handovers t).length).map fun a =>
        .submit destination (leftAfter table records a) := by
  induction h with
  | exhausted =>
    subst remaining
    exact ⟨.exhausted nonempty, rfl⟩
  | @confirmed left made pending t results replied all =>
    obtain rfl := path_outer_iff.mp replied
    subst remaining
    have hleft : leftAfter table records (made + 1) = [] := by
      rw [leftAfter_succ]
      exact obeys.first.left_of_confirmed all
    exact ⟨.confirmed (by omega) nonempty hleft, rfl⟩
  | broken replied final =>
    obtain rfl := path_outer_iff.mp replied
    exact absurd final obeys.first.again?_ne_none
  | cancelled => exact absurd (by simp) (unhurried interval)
  | @again left made pending rest t u reply notice r replied asked later ih =>
    obtain rfl := path_outer_iff.mp replied
    have hrest : rest = leftAfter table records (made + 1) := by
      rw [leftAfter_succ, ← remaining]
      exact obeys.first.left_of_again? asked
    have hhandovers : handovers ([⟨.submit destination pending, reply⟩] ++
        ⟨.note notice, ()⟩ :: pauses interval left ++ u) = ⟨destination, pending, reply⟩ :: handovers u := by
      cases left <;> rfl
    have hobeys : Obeys table (made + 1) u := by
      intro i x hx
      have hnext := obeys (i + 1) x (by rw [hhandovers]; exact hx)
      rwa [Nat.add_assoc made 1 i, Nat.add_comm 1 i]
    obtain ⟨hcloses, hrounds⟩ := ih hrest (ne_nil_of_again? asked nonempty) unhurried.right hobeys
    rw [hhandovers, List.length_cons, List.map_cons, hrounds, remaining]
    constructor
    · rw [Nat.add_assoc, Nat.add_comm 1] at hcloses
      rw [Nat.add_comm (handovers u).length]
      rwa [Nat.add_assoc] at hcloses
    · rfl

end Fates

end Retry

end EventDelivery

import EventDelivery.Proofs.Budget

/-! A larger budget. Attempts are made in the same way under every budget that has them, so that publishing with
more of them goes on where publishing with fewer gave up, and is the same where it did not. -/

namespace EventDelivery
open Interaction (Path)
set_option autoImplicit false

/-- No answer of the writer is a failed delivery, which is for publishing alone to tell. -/
def Abstains (h : List Exchange) : Prop :=
  ∀ x ∈ handovers h, ∀ report, x.answer ≠ .error (.delivery report)

/-- The writer answers with one result for each record that it was handed, in order. -/
def Pairs (h : List Exchange) : Prop :=
  ∀ x ∈ handovers h, ∀ results, x.answer = .ok results → results.map Result.record = x.records

section Views
variable {h k : List Exchange}

theorem Abstains.left (hk : Abstains (h ++ k)) : Abstains h :=
  fun x hx => hk x (by rw [handovers_append]; exact List.mem_append_left _ hx)

theorem Abstains.right (hk : Abstains (h ++ k)) : Abstains k :=
  fun x hx => hk x (by rw [handovers_append]; exact List.mem_append_right _ hx)

theorem Pairs.right (hk : Pairs (h ++ k)) : Pairs k :=
  fun x hx => hk x (by rw [handovers_append]; exact List.mem_append_right _ hx)

theorem Abstains.note {notice : Notice} (hk : Abstains h) : Abstains (h ++ [⟨.note notice, ()⟩]) := by
  intro x hx
  rw [handovers_append] at hx
  exact hk x (by simpa [handovers, Exchange.handover?] using hx)

theorem Abstains.ne_delivery {destination : Text} {records : List Record} {failure : Failure}
    {report : DeliveryReport} (hk : Abstains (⟨.submit destination records, .error failure⟩ :: k)) :
    failure ≠ .delivery report :=
  fun heq => hk ⟨destination, records, .error failure⟩ List.mem_cons_self report (congrArg Except.error heq)

theorem unhurried_nil : Unhurried [] := fun _ => List.not_mem_nil

theorem Unhurried.cons {x : Exchange} (hx : x.call.duration? = none) (hk : Unhurried k) :
    Unhurried (x :: k) := by
  intro duration hmem
  rcases List.mem_cons.mp hmem with rfl | hmem
  · cases hx
  · exact hk duration hmem

theorem Unhurried.pauses {interval : Seconds} {left : Nat} (hk : Unhurried k) :
    Unhurried (Retry.pauses interval left ++ k) := by
  cases left with
  | zero => exact hk
  | succ left =>
    intro duration hmem
    rcases List.mem_cons.mp hmem with heq | hmem
    · obtain ⟨hcall, hanswer⟩ := Exchange.mk.inj heq
      obtain rfl := Call.sleep.inj hcall
      cases hanswer
    · exact hk duration hmem

variable {table : Nat → Retry.Fate} {made : Nat}

theorem Retry.Obeys.abstains (obeys : Retry.Obeys table made h) : Abstains h := by
  intro x hx report heq
  obtain ⟨i, hi⟩ := List.mem_iff_getElem?.mp hx
  exact (heq ▸ obeys i x hi).again?_ne_none rfl

theorem Retry.Obeys.pairs (obeys : Retry.Obeys table made h) : Pairs h := by
  intro x hx results heq
  obtain ⟨i, hi⟩ := List.mem_iff_getElem?.mp hx
  have hanswers := obeys i x hi
  rw [heq] at hanswers
  cases hfate : table (made + i + 1) with
  | transport =>
    rw [hfate] at hanswers
    obtain ⟨message, code, hanswer⟩ := hanswers
    cases hanswer
  | failing positions =>
    rw [hfate] at hanswers
    obtain ⟨results', hanswer, paired, -⟩ := hanswers
    rwa [Except.ok.inj hanswer]

end Views

namespace Retry

section Tries
variable (submit : Submission) (interval : Seconds) (destination : Text)

/-- One attempt after those made: the number that it took, or what is to be submitted again. -/
def round (made : Nat) (pending : List Record) : Action (Nat ⊕ List Record) := do
  match ← attempt submit destination pending with
  | .inr (message, code) =>
    Action.note (.requestFailed destination pending.length (made + 1) code (.transport message code))
    return .inr pending
  | .inl results =>
    let failed := failed results
    if failed.isEmpty then return .inl (made + 1)
    else
      Action.note (.partialFailure destination failed.length (pending.length - failed.length)
        (made + 1) (codes failed))
      return .inr (failed.map Result.record)

/-- One attempt and so many more, with a pause between two of them. -/
def rounds : (more made : Nat) → (pending : List Record) → Action (Nat ⊕ List Record)
  | 0, made, pending => round submit destination made pending
  | more + 1, made, pending =>
    round submit destination made pending >>= Sum.elim (fun k => return .inl k) fun rest => do
      pause interval
      rounds more (made + 1) rest

def goOn (further made : Nat) (rest : List Record) : Action Nat := do
  backoff interval further
  publishFrom submit interval destination further made rest

variable {submit interval destination}

theorem publishFrom_succ (left made : Nat) (pending : List Record) :
    publishFrom submit interval destination (left + 1) made pending
      = round submit destination made pending
        >>= Sum.elim pure (goOn submit interval destination left (made + 1)) := by
  simp only [publishFrom, round, bind_assoc]
  refine congrArg (_ >>= ·) (funext fun told => ?_)
  cases told with
  | inr failure => simp only [bind_assoc, pure_bind, Sum.elim_inr, goOn]
  | inl results =>
    by_cases hall : (failed results).isEmpty
    · simp only [hall, if_true, pure_bind, Sum.elim_inl]
    · simp only [hall, Bool.false_eq_true, if_false, bind_assoc, pure_bind, Sum.elim_inr, goOn]

/-- Publishing makes its first attempts like every other publishing that has so many, and goes on with what they
leave. -/
theorem publishFrom_eq_rounds (further more made : Nat) (pending : List Record) :
    publishFrom submit interval destination (more + 1 + further) made pending
      = rounds submit interval destination more made pending
        >>= Sum.elim pure (goOn submit interval destination further (made + (more + 1))) := by
  induction more generalizing made pending with
  | zero => rw [Nat.zero_add, Nat.add_comm 1, publishFrom_succ, rounds]
  | succ more ih =>
    have hpause : backoff interval (more + 1 + further) = pause interval := if_neg (by omega)
    rw [Nat.add_right_comm (more + 1), publishFrom_succ, rounds, bind_assoc]
    refine congrArg (_ >>= ·) (funext fun told => ?_)
    cases told with
    | inl k => simp only [Sum.elim_inl, pure_bind]
    | inr rest =>
      have hmade : made + 1 + (more + 1) = made + (more + 1 + 1) := by omega
      simp only [Sum.elim_inr, bind_assoc, goOn, hpause, ih, hmade]

end Tries

/-- How two runs from one state part that publish with few attempts and with more: not at all, or where the few are
spent, which is told in a notice, and the other one goes on with what they have left. -/
inductive Parting {σ : Type} (world : World σ) (s : σ) (few more : Action Nat) (destination : Text) (spent : Nat)
    (goOn : List Record → Action Nat) : Prop where
  | same (run : Interaction.run world more.run s = Interaction.run world few.run s)
      (history : Interaction.history world more.run s = Interaction.history world few.run s) :
      Parting world s few more destination spent goOn
  | goesOn (shared : List Exchange) (notice : Notice) (rest : List Record) (s' : σ)
      (gaveUp : (Interaction.run world few.run s).1
        = .error (.delivery ⟨destination, spent, rest.map fun record => (record.position : Int)⟩))
      (told : Interaction.history world few.run s = shared ++ [⟨.note notice, ()⟩])
      (run : (Interaction.run world more.run s).1 = (Interaction.run world (goOn rest).run s').1)
      (history : Interaction.history world more.run s
        = shared ++ Interaction.history world (goOn rest).run s') :
      Parting world s few more destination spent goOn

theorem parting_of_publishFrom {σ : Type} (world : World σ) (s : σ) (submit : Submission) (interval : Seconds)
    (destination : Text) (further left made : Nat) (pending : List Record) :
    Parting world s (publishFrom submit interval destination (left + 1) made pending)
      (publishFrom submit interval destination (left + 1 + further) made pending) destination (made + (left + 1))
      (goOn submit interval destination further (made + (left + 1))) := by
  have hfew : publishFrom submit interval destination (left + 1) made pending
      = rounds submit interval destination left made pending
        >>= Sum.elim pure (goOn submit interval destination 0 (made + (left + 1))) :=
    publishFrom_eq_rounds 0 left made pending
  rw [publishFrom_eq_rounds, hfew]
  cases htold : (Interaction.run world (rounds submit interval destination left made pending).run s).1 with
  | error e =>
    obtain ⟨hmore, hmores⟩ := Action.run_bind_of_error
      (f := Sum.elim pure (goOn submit interval destination further (made + (left + 1)))) htold
    obtain ⟨hfew, hfews⟩ := Action.run_bind_of_error
      (f := Sum.elim pure (goOn submit interval destination 0 (made + (left + 1)))) htold
    exact .same (hmore.trans hfew.symm) (hmores.trans hfews.symm)
  | ok told =>
    obtain ⟨hmore, hmores⟩ := Action.run_bind_of_ok
      (f := Sum.elim pure (goOn submit interval destination further (made + (left + 1)))) htold
    obtain ⟨hfew, hfews⟩ := Action.run_bind_of_ok
      (f := Sum.elim pure (goOn submit interval destination 0 (made + (left + 1)))) htold
    cases told with
    | inl k => exact .same (hmore.trans hfew.symm) (hmores.trans hfews.symm)
    | inr rest => exact .goesOn _ _ rest _ (congrArg Prod.fst hfew) hfews (congrArg Prod.fst hmore) hmores

section Exhaustion
variable {interval : Seconds} {destination : Text} {budget made : Nat} {pending rest : List Record}
  {t : List Exchange} {r : Except Failure Nat} {report : DeliveryReport}

theorem unhurried_of_course (h : Course outer interval destination budget made pending t r)
    (uncancelled : r ≠ .error .cancelled) : Unhurried t := by
  induction h with
  | exhausted => exact unhurried_nil.cons rfl
  | confirmed replied _ | broken replied _ =>
    obtain rfl := path_outer_iff.mp replied
    exact unhurried_nil.cons rfl
  | cancelled => exact absurd rfl uncancelled
  | again replied asked later ih =>
    obtain rfl := path_outer_iff.mp replied
    exact ((ih uncancelled).pauses.cons rfl).cons rfl

/-- A delivery that the writer did not tell of as failed is given up when all attempts are made. -/
theorem length_handovers_of_course (h : Course outer interval destination budget made pending t r)
    (abstains : Abstains t) (exhausted : r = .error (.delivery report)) : (handovers t).length = budget := by
  induction h with
  | exhausted => rfl
  | confirmed => cases exhausted
  | broken replied final =>
    obtain rfl := path_outer_iff.mp replied
    exact absurd (Except.error.inj exhausted) abstains.ne_delivery
  | cancelled => cases exhausted
  | @again left made pending rest t u reply notice r replied asked later ih =>
    obtain rfl := path_outer_iff.mp replied
    have hlength := ih abstains.right exhausted
    cases left <;> exact congrArg (· + 1) hlength

theorem sleeps_of_course (h : Course outer interval destination budget made pending t r)
    (abstains : Abstains t) (exhausted : r = .error (.delivery report)) :
    sleeps t = List.replicate (budget - 1) interval := by
  obtain ⟨hdeeds, -⟩ := alternates_of_course h (unhurried_of_course h (by simp [exhausted]))
  rw [← filterMap_duration?_deeds, hdeeds, filterMap_intersperse (f := Call.duration?) rfl, List.length_map,
    length_handovers_of_course h abstains exhausted]
  intro call hcall
  obtain ⟨x, -, rfl⟩ := List.mem_map.mp hcall
  rfl

theorem sublist_of_again? {reply : Except Failure (List Result)} (asked : again? pending reply = some rest)
    (pairs : ∀ results, reply = .ok results → results.map Result.record = pending) : rest.Sublist pending := by
  unfold again? at asked
  split at asked
  · rename_i results
    split at asked
    · cases asked
    · obtain rfl := Option.some.inj asked
      rw [← pairs results rfl]
      exact List.filter_sublist.map Result.record
  · exact (Option.some.inj asked).symm ▸ List.Sublist.refl _
  · cases asked

theorem positions_of_course (h : Course outer interval destination budget made pending t r)
    (abstains : Abstains t) (pairs : Pairs t) (exhausted : r = .error (.delivery report)) :
    report.positions.Sublist (pending.map fun record => (record.position : Int)) := by
  induction h with
  | exhausted =>
    obtain rfl := Failure.delivery.inj (Except.error.inj exhausted)
    exact List.Sublist.refl _
  | confirmed => cases exhausted
  | broken replied final =>
    obtain rfl := path_outer_iff.mp replied
    exact absurd (Except.error.inj exhausted) abstains.ne_delivery
  | cancelled => cases exhausted
  | @again left made pending rest t u reply notice r replied asked later ih =>
    obtain rfl := path_outer_iff.mp replied
    have hrest : rest.Sublist pending :=
      sublist_of_again? asked (pairs ⟨destination, pending, reply⟩ List.mem_cons_self)
    exact (ih abstains.right pairs.right exhausted).trans (hrest.map _)

theorem path_backoff_error {left : Nat} {e : Failure} (h : Path (backoff interval left).run t (.error e)) :
    e = .cancelled := by
  unfold backoff at h
  split at h
  · cases (Action.path_pure_iff.mp h).2
  · obtain ⟨answer, -, he⟩ := Action.path_ofCall_iff.mp h
    cases answer with
    | ok ended => cases he
    | error cut => exact Except.error.inj he

theorem positions_of_goOn {further : Nat} (h : Path (goOn outer interval destination further made rest).run t r)
    (abstains : Abstains t) (pairs : Pairs t) (exhausted : r = .error (.delivery report)) :
    report.positions.Sublist (rest.map fun record => (record.position : Int)) := by
  rcases Action.path_bind_iff.mp h with ⟨e, hpause, rfl⟩ | ⟨_, t₁, t₂, -, hnext, rfl⟩
  · rw [path_backoff_error hpause] at exhausted
    cases exhausted
  · exact positions_of_course (course_of_path hnext) abstains.right pairs.right exhausted

end Exhaustion

/-- How a run goes on where one with a smaller budget gives up: the budget and the report of the smaller one, the
histories of both, and how the larger one ends. -/
structure Extends (budget : Nat) (interval : Seconds) (report : DeliveryReport) (small large : List Exchange)
    (ending : Except Failure Nat) : Prop where
  spent : (handovers small).length = budget
  pauses : sleeps small = List.replicate (budget - 1) interval
  /-- What was asked of the outside is asked again, and then some. -/
  asked : deeds small <+: deeds large
  answered : handovers small <+: handovers large
  fewer : Pairs large → ∀ later, ending = .error (.delivery later) → later.positions.Sublist report.positions

section Budgets
variable {σ : Type} (world : World σ) (s : σ) (destination : Text) (records : List Record)
  {small large : RetryPolicy}

theorem parting_of_publish (same : small.interval = large.interval) (le : small.attempts ≤ large.attempts) :
    Parting world s (publish outer small destination records) (publish outer large destination records) destination
      small.attempts (goOn outer small.interval destination (large.attempts - small.attempts) small.attempts) := by
  by_cases hempty : records.isEmpty
  · simp only [publish, hempty, if_true]
    exact .same rfl rfl
  obtain ⟨left, hleft⟩ := Nat.exists_eq_add_of_lt small.attempts_pos
  obtain ⟨further, hfurther⟩ := Nat.exists_eq_add_of_le le
  rw [Nat.zero_add] at hleft
  simp only [publish, hempty, Bool.false_eq_true, if_false, ← same, hfurther, hleft, Nat.add_sub_cancel_left]
  have hparting := parting_of_publishFrom world s outer small.interval destination further left 0 records
  rwa [Nat.zero_add] at hparting

/-- From the same state of the writer a larger budget only extends publishing. Whatever the smaller one ends in but a
failed delivery, the larger one ends in too, in the same way; and when the smaller one is spent, the larger one makes
all of its attempts and goes on. -/
theorem publish_extends (same : small.interval = large.interval) (le : small.attempts ≤ large.attempts) :
    ((∀ report, (Interaction.run world (publish outer small destination records).run s).1
          ≠ .error (.delivery report)) →
      Interaction.run world (publish outer large destination records).run s
          = Interaction.run world (publish outer small destination records).run s ∧
        Interaction.history world (publish outer large destination records).run s
          = Interaction.history world (publish outer small destination records).run s) ∧
    ∀ report, (Interaction.run world (publish outer small destination records).run s).1
        = .error (.delivery report) →
      Abstains (Interaction.history world (publish outer large destination records).run s) →
      Extends small.attempts small.interval report
        (Interaction.history world (publish outer small destination records).run s)
        (Interaction.history world (publish outer large destination records).run s)
        (Interaction.run world (publish outer large destination records).run s).1 := by
  have hparting := parting_of_publish world s destination records same le
  constructor
  · intro hnot
    cases hparting with
    | same hrun hhistory => exact ⟨hrun, hhistory⟩
    | goesOn shared notice rest s' hgaveUp => exact absurd hgaveUp (hnot _)
  · intro report hreport abstains
    have hnonempty : records ≠ [] := by
      rintro rfl
      cases hreport
    have hpath := Interaction.path_run world (publish outer small destination records).run s
    rw [hreport] at hpath
    have hcourse := course_of_publish hnonempty hpath
    cases hparting with
    | same hrun hhistory =>
      rw [hhistory] at abstains ⊢
      rw [hrun, hreport]
      refine ⟨length_handovers_of_course hcourse abstains rfl, sleeps_of_course hcourse abstains rfl,
        List.prefix_rfl, List.prefix_rfl, ?_⟩
      intro _ later hlater
      obtain rfl := Failure.delivery.inj (Except.error.inj hlater)
      exact List.Sublist.refl _
    | goesOn shared notice rest s' hgaveUp htold hrun hhistory =>
      rw [htold] at hcourse ⊢
      rw [hhistory] at abstains ⊢
      obtain rfl := Failure.delivery.inj (Except.error.inj (hreport.symm.trans hgaveUp))
      have hfew : Abstains (shared ++ [⟨.note notice, ()⟩]) := abstains.left.note
      refine ⟨length_handovers_of_course hcourse hfew rfl, sleeps_of_course hcourse hfew rfl, ?_, ?_, ?_⟩
      · rw [deeds_append, deeds_append]
        exact (List.prefix_append_right_inj _).mpr List.nil_prefix
      · rw [handovers_append, handovers_append]
        exact (List.prefix_append_right_inj _).mpr List.nil_prefix
      · intro pairs later hlater
        rw [hrun] at hlater
        exact positions_of_goOn (Interaction.path_run world _ s') abstains.right pairs.right hlater

/-- A fourth attempt changes nothing for the stumbling writer, which confirms both twins in the third; a second one
leaves the second twin, where the first left both. -/
theorem publish_extends_stumbling :
    (Interaction.run (World.fated stumbling) (publish outer ⟨4, by decide, .whole 1⟩ [] twins).run 0
        = Interaction.run (World.fated stumbling) (publish outer ⟨3, by decide, .whole 1⟩ [] twins).run 0 ∧
      Interaction.history (World.fated stumbling) (publish outer ⟨4, by decide, .whole 1⟩ [] twins).run 0
        = Interaction.history (World.fated stumbling)
          (publish outer ⟨3, by decide, .whole 1⟩ [] twins).run 0) ∧
    Pairs (Interaction.history (World.fated stumbling)
      (publish outer ⟨2, by decide, .whole 1⟩ [] twins).run 0) ∧
    Extends 1 (.whole 1) ⟨[], 1, [0, 1]⟩
      (Interaction.history (World.fated stumbling) (publish outer ⟨1, by decide, .whole 1⟩ [] twins).run 0)
      (Interaction.history (World.fated stumbling) (publish outer ⟨2, by decide, .whole 1⟩ [] twins).run 0)
      (.error (.delivery ⟨[], 2, [1]⟩)) := by
  obtain ⟨-, hobeys⟩ := obeys_fated stumbling (publish outer ⟨2, by decide, .whole 1⟩ [] twins).run 0
  refine ⟨?_, hobeys.pairs, ?_⟩
  · refine (@publish_extends _ (World.fated stumbling) 0 [] twins ⟨3, by decide, .whole 1⟩
      ⟨4, by decide, .whole 1⟩ rfl (by decide)).1 fun report hreport => ?_
    have hthree : (Interaction.run (World.fated stumbling)
        (publish outer ⟨3, by decide, .whole 1⟩ [] twins).run 0).1 = .ok 3 := rfl
    rw [hthree] at hreport
    cases hreport
  · exact (@publish_extends _ (World.fated stumbling) 0 [] twins ⟨1, by decide, .whole 1⟩
      ⟨2, by decide, .whole 1⟩ rfl (by decide)).2 ⟨[], 1, [0, 1]⟩ rfl hobeys.abstains

end Budgets

end Retry

end EventDelivery

import EventDelivery.Sink
import EventDelivery.Proofs.History
import EventDelivery.Proofs.Path

/-! Batches without a committer. A list takes all marks and the finish, so that what the outside sees is the
history of a delivery to a committer that refuses nothing, with the committer's part left out. -/

namespace EventDelivery
open Interaction (Path)
set_option autoImplicit false

def Exchange.isCommitting : Exchange → Bool
  | ⟨.mark _, _⟩ | ⟨.finish, _⟩ => true
  | _ => false

/-- A history without the committer's part. -/
def outward (h : List Exchange) : List Exchange := h.filter (!·.isCommitting)

/-- The committer refuses neither a mark nor the finish. -/
structure Agreeable (h : List Exchange) : Prop where
  marking : ∀ event fault, (⟨.mark event, .error fault⟩ : Exchange) ∉ h
  finishing : ∀ fault, (⟨.finish, .error fault⟩ : Exchange) ∉ h

theorem Agreeable.cons {h : List Exchange} {x : Exchange} (hagree : Agreeable h)
    (mark : ∀ event fault, (⟨.mark event, .error fault⟩ : Exchange) ≠ x)
    (finish : ∀ fault, (⟨.finish, .error fault⟩ : Exchange) ≠ x) : Agreeable (x :: h) := by
  constructor
  · intro event fault hmem
    rcases List.mem_cons.mp hmem with heq | hmem
    · exact mark event fault heq
    · exact hagree.marking event fault hmem
  · intro fault hmem
    rcases List.mem_cons.mp hmem with heq | hmem
    · exact finish fault heq
    · exact hagree.finishing fault hmem

@[simp] theorem attempts_outward (h : List Exchange) : attempts (outward h) = attempts h := by
  rw [attempts, outward, List.filterMap_filter, attempts]
  refine congrArg (fun view => h.filterMap view) (funext fun x => ?_)
  obtain ⟨call, answer⟩ := x
  cases call <;> rfl

/-- The list plays an agreeable committer: it holds the events that were marked for it. -/
theorem path_of_collecting {α : Type} {p : Interaction α} {marked : Array Event} {finished : Bool}
    {t : List Exchange} {r : α × List Event × Bool} (h : Path (collecting marked finished p) t r) :
    ∃ u, Path p u r.1 ∧ Agreeable u ∧ t = outward u ∧ r.2.1 = marked.toList ++ marks u ∧
      r.2.2 = (finished || u.any Exchange.isFinish) := by
  induction p generalizing marked finished t with
  | done a =>
    obtain ⟨rfl, rfl⟩ := Interaction.path_done_iff.mp h
    exact ⟨[], .done a, ⟨fun _ _ => List.not_mem_nil, fun _ => List.not_mem_nil⟩, rfl,
      (List.append_nil _).symm, (Bool.or_false _).symm⟩
  | call c next ih =>
    cases c with
    | mark event =>
      obtain ⟨u, hu, hagree, rfl, hmarked, hfinished⟩ := ih (.ok ()) h
      refine ⟨Exchange.accepted event :: u, .call hu, hagree.cons ?_ ?_, rfl, ?_, hfinished⟩
      · intro event' fault heq
        cases heq
      · intro fault heq
        cases heq
      · rw [hmarked, Array.toList_push, List.append_assoc]
        rfl
    | finish =>
      obtain ⟨u, hu, hagree, rfl, hmarked, hfinished⟩ := ih (.ok ()) h
      refine ⟨⟨.finish, .ok ()⟩ :: u, .call hu, hagree.cons ?_ ?_, rfl, hmarked, ?_⟩
      · intro event fault heq
        cases heq
      · intro fault heq
        cases heq
      · rw [hfinished]
        simp [Exchange.isFinish]
    | _ =>
      obtain ⟨answer, rest, rfl, hrest⟩ := Interaction.path_call_iff.mp h
      obtain ⟨u, hu, hagree, rfl, hmarked, hfinished⟩ := ih answer hrest
      refine ⟨_ :: u, .call hu, hagree.cons ?_ ?_, rfl, hmarked, hfinished⟩
      · intro event fault heq
        cases heq
      · intro fault heq
        cases heq

namespace Sink

/-- What a batch reports that ended so: its marks, whether it was finished, and a failure if that is told. -/
def reportOf (u : List Exchange) : Except Failure Unit → Except Failure BatchReport
  | .ok () => .ok ⟨marks u, u.any Exchange.isFinish, none⟩
  | .error failure => if failure.isReported then .ok ⟨marks u, false, some failure⟩ else .error failure

theorem processed_of_reportOf {u : List Exchange} {ending : Except Failure Unit} {report : BatchReport}
    (h : reportOf u ending = .ok report) : report.processed = marks u := by
  unfold reportOf at h
  split at h
  · obtain rfl := Except.ok.inj h
    rfl
  · split at h
    · obtain rfl := Except.ok.inj h
      rfl
    · cases h

theorem path_of_publishBatch {sink : Sink} {events : List Event} {t : List Exchange}
    {r : Except Failure BatchReport} (h : Path (sink.publishBatch events).run t r) :
    ∃ u ending, Path (sink.handleBatch events).run u ending ∧ Agreeable u ∧ t = outward u ∧
      r = reportOf u ending := by
  obtain ⟨⟨ending, marked, finished⟩, t₁, t₂, hcollected, hreport, rfl⟩ := Interaction.path_bind_iff.mp h
  obtain ⟨u, hu, hagree, rfl, hmarked, hfinished⟩ := path_of_collecting hcollected
  have hmarks : marked = marks u := by simpa using hmarked
  have hfinish : finished = u.any Exchange.isFinish := by simpa using hfinished
  subst hmarks hfinish
  refine ⟨u, ending, hu, hagree, ?_⟩
  cases ending with
  | ok ended =>
    obtain ⟨rfl, rfl⟩ := Interaction.path_done_iff.mp hreport
    exact ⟨List.append_nil _, rfl⟩
  | error failure =>
    unfold reportOf
    cases hreported : failure.isReported <;> simp only [hreported] at hreport ⊢ <;>
      obtain ⟨rfl, rfl⟩ := Interaction.path_done_iff.mp hreport
    · exact ⟨List.append_nil _, rfl⟩
    · exact ⟨List.append_nil _, rfl⟩

end Sink

end EventDelivery

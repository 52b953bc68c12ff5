import EventDelivery.Proofs.Composition
import EventDelivery.Proofs.ExitCode

/-! A run of the service as it is seen from outside: its requests and pauses, and the number of published
events that it tells in the end. A client is obtained before and closed after all of them. -/

namespace EventDelivery
open Interaction (Path)
set_option autoImplicit false

namespace Call

def isEffort : Call → Bool
  | send _ | sleep _ => true
  | _ => false

/-- The number of published events that a notice tells, at the end of a run. -/
def published? : Call → Option Nat
  | note (.serviceStop published) | note (.batchFailed published _ _) => some published
  | _ => none

/-- Neither a request nor a pause, and nothing that tells a number of published events. -/
def isAside (c : Call) : Bool := !c.isEffort && c.published?.isNone

theorem isEffort_of_isAside {c : Call} (h : c.isAside) : c.isEffort = false := by
  simp only [isAside, Bool.and_eq_true, Bool.not_eq_true'] at h
  exact h.1

theorem published?_of_isOfBatch {c : Call} (h : c.isOfBatch) : c.published? = none := by
  cases c with
  | note notice => cases notice <;> first | rfl | simp [isOfBatch, Notice.component] at h
  | _ => rfl

end Call

def efforts (h : List Exchange) : List Exchange := h.filter (·.call.isEffort)

def counts (h : List Exchange) : List Nat := h.filterMap (·.call.published?)

section Views
variable {h k : List Exchange}

theorem efforts_append : efforts (h ++ k) = efforts h ++ efforts k := List.filter_append _ _

theorem counts_append : counts (h ++ k) = counts h ++ counts k := List.filterMap_append

theorem efforts_of_isAside (aside : ∀ x ∈ h, x.call.isAside) : efforts h = [] := by
  apply List.filter_eq_nil_iff.mpr
  intro x hx
  simp [Call.isEffort_of_isAside (aside x hx)]

theorem counts_of_isAside (aside : ∀ x ∈ h, x.call.isAside) : counts h = [] := by
  apply List.filterMap_eq_nil_iff.mpr
  intro x hx
  have hcall := aside x hx
  simp only [Call.isAside, Bool.and_eq_true, Option.isNone_iff_eq_none] at hcall
  exact hcall.2

theorem counts_of_isOfBatch (batch : ∀ x ∈ h, x.call.isOfBatch) : counts h = [] := by
  apply List.filterMap_eq_nil_iff.mpr
  intro x hx
  exact Call.published?_of_isOfBatch (batch x hx)

end Views

namespace Sink

def build (settings : Settings) (client : Client) : Except Failure Sink := do
  let naming ← StreamNaming.ofName settings.streamNaming
  make client settings.nullKey naming.apply

section Making
variable {settings : Settings} {client : Client} {source : ClientSource}

theorem ofSettings_eq :
    ofSettings settings source = (do
      let client ← obtainClient settings source
      Action.ofExcept (build settings client)) := by
  refine congrArg (obtainClient settings source >>= ·) (funext fun client => ?_)
  unfold build
  cases StreamNaming.ofName settings.streamNaming <;> rfl

theorem build_of_named {naming : StreamNaming} (nonempty : settings.nullKey ≠ [])
    (named : settings.streamNaming = Text.ofString naming.name) :
    build settings client = .ok ⟨client, settings.nullKey, nonempty, naming.apply, true⟩ := by
  rw [build, named, StreamNaming.ofName_name]
  exact dif_neg nonempty

theorem build_of_sound (sound : settings.Sound) :
    ∃ naming : StreamNaming, ∀ client,
      build settings client = .ok ⟨client, settings.nullKey, sound.nullKey, naming.apply, true⟩ := by
  obtain ⟨naming, hnaming⟩ := sound.streamNaming
  exact ⟨naming, fun _ => build_of_named sound.nullKey hnaming⟩

theorem make_eq_ok_iff {nullKey : Text} {naming : Text → Text} {sink : Sink} :
    make client nullKey naming = .ok sink ↔ ∃ h, sink = ⟨client, nullKey, h, naming, true⟩ := by
  unfold make
  split
  · constructor
    · intro h
      cases h
    · rintro ⟨hne, -⟩
      contradiction
  · rename_i hne
    constructor
    · intro h
      exact ⟨hne, (Except.ok.inj h).symm⟩
    · rintro ⟨-, rfl⟩
      rfl

theorem isOpen_of_build {sink : Sink} (h : build settings client = .ok sink) : sink.isOpen = true := by
  obtain ⟨naming, -, hmake⟩ := bind_eq_ok_iff.mp h
  obtain ⟨-, rfl⟩ := make_eq_ok_iff.mp hmake
  rfl

theorem calls_obtainClient : (obtainClient settings source).run.Calls (·.isAside) := by
  cases source with
  | given client =>
    apply Action.calls_bind
    · exact Action.calls_note rfl
    · intro noted
      trivial
  | standard =>
    apply Action.calls_bind
    · exact Action.calls_ofCall rfl
    · intro client
      apply Action.calls_bind
      · exact Action.calls_note rfl
      · intro noted
        trivial

theorem calls_ofSettings : (ofSettings settings source).run.Calls (·.isAside) := by
  rw [ofSettings_eq]
  apply Action.calls_bind calls_obtainClient
  intro client
  trivial

theorem calls_close {sink : Sink} : sink.close.Calls (·.isAside) := by
  unfold close
  split
  · apply Interaction.Calls.bind
    · unfold closeClient
      split
      · refine ⟨rfl, fun answer => ?_⟩
        cases answer with
        | ok closed => trivial
        | error fault => exact ⟨rfl, fun _ => trivial⟩
      · trivial
    · intro closed
      trivial
  · trivial

end Making

end Sink

namespace Service

open Batch (traces)

def conclude (sink : Sink) (action : Action Ending) : Action Nat := do
  let ending ← sink.closingAfter action
  match ending with
  | .complete published => Action.note (.serviceStop published)
  | .failed _ => pure ()
  return ending.exitCode

section Equations
variable {environment : Environment} {given : Option Settings} {settings : Settings} {source : ClientSource}
  {lines : List String}

theorem deliver_eq :
    deliver settings source lines = (do
      Action.note (.serviceStart settings.region settings.endpoint settings.batchSize)
      let client ← Sink.obtainClient settings source
      let sink ← Action.ofExcept (Sink.build settings client)
      conclude sink (deliverLines sink settings.batchSize 1 #[] 0 lines)) := by
  rw [deliver, Sink.ofSettings_eq]
  simp only [bind_assoc]
  rfl

theorem run_eq_deliver (chosen : Chosen environment given settings) :
    run environment given source lines = (do
      let _ ← Action.ofExcept (RootLogger.configure environment .untouched)
      deliver settings source lines) := by
  refine congrArg (Action.ofExcept (RootLogger.configure environment .untouched) >>= ·)
    (funext fun logger => ?_)
  rcases chosen with rfl | ⟨rfl, loaded⟩
  · rfl
  · rw [loaded]
    rfl

theorem run_of_logged (chosen : Chosen environment given settings) {logger : RootLogger}
    (logging : RootLogger.configure environment .untouched = .ok logger) :
    run environment given source lines = deliver settings source lines := by
  rw [run_eq_deliver chosen, logging, Action.ofExcept_ok_bind]

theorem run_of_unlogged {failure : Failure}
    (unset : RootLogger.configure environment .untouched = .error failure) :
    run environment given source lines = Action.ofExcept (.error failure) := by
  rw [run, unset]
  rfl

theorem sound_of_chosen (chosen : given = some settings ∧ settings.Accepted ∨
      given = none ∧ Settings.load environment [] = .ok settings) :
    Chosen environment given settings ∧ settings.Sound := by
  rcases chosen with ⟨hgiven, accepted⟩ | ⟨hnone, loaded⟩
  · exact ⟨.inl hgiven, accepted.sound⟩
  · exact ⟨.inr ⟨hnone, loaded⟩, Settings.sound_of_load loaded⟩

end Equations

theorem effortless_of_stopping {ending : Except Failure Ending} :
    ∀ x ∈ stopping ending, x.call.isEffort = false := by
  intro x hx
  unfold stopping at hx
  split at hx
  · rw [List.mem_singleton.mp hx]
    rfl
  · cases hx

section Histories
variable {σ : Type} {world : World σ} {s : σ} {sink : Sink} {action : Action Ending}

theorem Sink.run_closingAfter :
    (Interaction.run world (sink.closingAfter action).run s).1 = (Interaction.run world action.run s).1 ∧
    Interaction.history world (sink.closingAfter action).run s
      = Interaction.history world action.run s
        ++ Interaction.history world sink.close (Interaction.run world action.run s).2 := by
  have hclosing : (sink.closingAfter action).run = (do
      let ending ← action.run
      let _ ← sink.close
      return ending) := rfl
  rw [hclosing]
  simp only [Interaction.run_bind, Interaction.history_bind, Interaction.pure_eq, Interaction.run_done,
    Interaction.history_done, List.append_nil, and_self]

theorem run_conclude :
    (Interaction.run world (conclude sink action).run s).1
      = (Interaction.run world action.run s).1.map Ending.exitCode ∧
    Interaction.history world (conclude sink action).run s
      = Interaction.history world action.run s
        ++ Interaction.history world sink.close (Interaction.run world action.run s).2
        ++ stopping (Interaction.run world action.run s).1 := by
  obtain ⟨hresult, hhistory⟩ := @Sink.run_closingAfter σ world s sink action
  cases hended : (Interaction.run world action.run s).1 with
  | error failure =>
    rw [hended] at hresult
    obtain ⟨hrun, hwhole⟩ := Action.run_bind_of_error hresult
    rw [conclude, hrun, hwhole, hhistory]
    exact ⟨rfl, (List.append_nil _).symm⟩
  | ok ending =>
    rw [hended] at hresult
    obtain ⟨hrun, hwhole⟩ := Action.run_bind_of_ok hresult
    rw [conclude, hrun, hwhole, hhistory]
    cases ending with
    | complete published => exact ⟨rfl, rfl⟩
    | failed published => exact ⟨rfl, rfl⟩

end Histories

section Counting
variable {sink : Sink} {settings : Settings} {source : ClientSource} {lines : List String} {t : List Exchange}

theorem counts_of_publishBatch {events : List Event} {r : Except Failure BatchReport}
    (h : Path (sink.publishBatch events).run t r) : counts t = [] :=
  counts_of_isOfBatch ((Sink.calls_publishBatch events).of_path h)

theorem counts_traces {batches : List Batch} (h : ∀ batch ∈ batches, batch.Published sink) :
    counts (traces batches) = [] := by
  induction batches with
  | nil => rfl
  | cons batch batches ih =>
    obtain ⟨hbatch, hbatches⟩ := List.forall_mem_cons.mp h
    rw [traces, List.flatMap_cons, counts_append, counts_of_publishBatch hbatch.path]
    exact ih hbatches

theorem counts_of_delivers {cut : Option Failure} {published : Nat} {groups : List (List Event)}
    {ending : Except Failure Ending} (h : Delivers sink cut published groups t ending) :
    counts (t ++ stopping ending) = (match ending with
      | .ok (.complete n) | .ok (.failed n) => [n]
      | .error _ => []) := by
  rw [counts_append]
  cases h with
  | complete batches all delivered whole =>
    rw [counts_traces (Batch.published_of_delivered delivered)]
    rfl
  | cut batches all delivered bad =>
    rw [counts_traces (Batch.published_of_delivered delivered)]
    rfl
  | @failed batches last later failure split delivered tried reported =>
    rw [counts_append, counts_traces (Batch.published_concat delivered tried)]
    rfl
  | raised batches split delivered raised =>
    rw [counts_append, counts_traces (Batch.published_of_delivered delivered),
      counts_of_publishBatch raised]
    rfl

/-- A run that ends with an exit code tells one number of published events. -/
theorem counts_of_deliver (positive : 0 < settings.batchSize.toNat) {code : Nat}
    (h : Path (deliver settings source lines).run t (.ok code)) : ∃ n, counts t = [n] := by
  rw [deliver_eq] at h
  obtain ⟨u, rfl, hu⟩ := Action.path_note_bind_iff.mp h
  rcases Action.path_bind_iff.mp hu with ⟨failure, -, hr⟩ | ⟨client, t₁, t₂, hclient, hrest, rfl⟩
  · cases hr
  rcases Action.path_bind_iff.mp hrest with ⟨failure, -, hr⟩ | ⟨sink, t₃, t₄, hsink, hconclude, rfl⟩
  · cases hr
  obtain ⟨rfl, -⟩ := Action.path_ofExcept_iff.mp hsink
  obtain ⟨delivery, closing, closed, ending, hlines, hclose, rfl, hcode⟩ := path_conclusion hconclude
  rw [deliverLines_eq_publishAll positive] at hlines
  have hclient := counts_of_isAside (Sink.calls_obtainClient.of_path hclient)
  have hclose := counts_of_isAside (Sink.calls_close.of_path hclose)
  have hdelivery := counts_of_delivers (delivers_of_path hlines)
  have hstart (x : List Exchange) : counts (⟨.note (.serviceStart settings.region settings.endpoint
      settings.batchSize), ()⟩ :: x) = counts x := rfl
  rw [counts_append] at hdelivery
  rw [hstart, counts_append, hclient, List.nil_append, List.nil_append, counts_append, counts_append, hclose,
    List.append_nil, hdelivery]
  cases ending with
  | error failure => cases hcode
  | ok ended => cases ended <;> exact ⟨_, rfl⟩

theorem counts_of_run {environment : Environment} {given : Option Settings}
    (chosen : Chosen environment given settings) (positive : 0 < settings.batchSize.toNat) {code : Nat}
    (h : Path (run environment given source lines).run t (.ok code)) : ∃ n, counts t = [n] := by
  rw [run_eq_deliver chosen] at h
  rcases Action.path_bind_iff.mp h with ⟨failure, -, hr⟩ | ⟨logger, t₁, t₂, hlogging, hrest, rfl⟩
  · cases hr
  · obtain ⟨rfl, -⟩ := Action.path_ofExcept_iff.mp hlogging
    exact counts_of_deliver positive hrest

end Counting

end Service

end EventDelivery

import EventDelivery.Service
import EventDelivery.Proofs.Collecting
import EventDelivery.Proofs.Feed
import EventDelivery.Proofs.Settings

/-! What the service does with its lines. Groups are published while lines are still read, and yet it is the
same as if all lines were read first and the groups of that feed published after it. -/

namespace EventDelivery
open Interaction (Path)
set_option autoImplicit false

theorem Sink.path_closingAfter {α : Type} {sink : Sink} {action : Action α} {t : List Exchange}
    {r : Except Failure α} (h : Path (sink.closingAfter action).run t r) :
    ∃ t₁ t₂ closed, Path action.run t₁ r ∧ Path sink.close t₂ closed ∧ t = t₁ ++ t₂ := by
  obtain ⟨ending, t₁, t₂, haction, hrest, rfl⟩ := Interaction.path_bind_iff.mp h
  obtain ⟨closed, t₃, t₄, hclose, hdone, rfl⟩ := Interaction.path_bind_iff.mp hrest
  obtain ⟨rfl, rfl⟩ := Interaction.path_done_iff.mp hdone
  exact ⟨t₁, t₃, closed, haction, hclose, by rw [List.append_nil]⟩

namespace Service

/-- Publishes groups one after another until one fails; what cut their feed is told after the last one. -/
def publishAll (sink : Sink) (cut : Option Failure) (published : Nat) : List (List Event) → Action Ending
  | [] =>
    match cut with
    | none => return .complete published
    | some failure => throw failure
  | group :: rest => do
    let (published, failed) ← publishGroup sink group published
    if failed then return .failed published else publishAll sink cut published rest

section Lines
variable {sink : Sink} {size : Int} (positive : 0 < size.toNat) {number published : Nat}
  {group : Array Event} {lines : List String}

theorem publishAll_singleton (group : List Event) :
    publishAll sink none published [group] = (do
      let (published, failed) ← publishGroup sink group published
      return if failed then .failed published else .complete published) := by
  refine congrArg (publishGroup sink group published >>= ·) (funext fun told => ?_)
  obtain ⟨published, failed⟩ := told
  cases failed <;> rfl

/-- Publishing while reading comes to reading first: of the events that were kept and those of the feed, the
groups are published. -/
theorem deliverLines_eq_from (room : group.size < size.toNat) :
    deliverLines sink size number group published lines
      = publishAll sink (Feed.readFrom number lines).failure published
          (((Feed.readFrom number lines).after group.toList).groups size.toNat positive) := by
  induction lines generalizing number group published with
  | nil =>
    rw [deliverLines, Feed.readFrom]
    by_cases hempty : group.isEmpty
    · obtain rfl := Array.isEmpty_iff.mp hempty
      rw [if_pos hempty, Feed.after_nil, Feed.groups, Feed.empty, windows_nil]
      rfl
    · have hkept : group.toList ≠ [] := by simpa using hempty
      rw [if_neg hempty, Feed.groups_after_of_end hkept (Nat.le_of_lt room), Feed.empty,
        publishAll_singleton]
  | cons line lines ih =>
    rw [deliverLines, Feed.readFrom]
    cases hread : readLine line with
    | error issues =>
      rw [Feed.groups_after_of_bad room]
      rfl
    | ok told =>
      cases told with
      | none => exact ih room
      | some event =>
        have hfeed : ((Feed.readFrom (number + 1) lines).cons event).after group.toList
            = (Feed.readFrom (number + 1) lines).after (group.push event).toList := by
          rw [Feed.after_cons, Array.toList_push]
        simp only [hfeed]
        have hsize : (group.push event).size = group.size + 1 := Array.size_push event
        by_cases hfull : size ≤ (group.push event).size
        · have hlength : (group.push event).toList.length = size.toNat := by
            rw [Array.length_toList]
            omega
          rw [if_pos hfull, Feed.groups_after_of_full hlength, publishAll]
          refine congrArg (publishGroup sink (group.push event).toList published >>= ·)
            (funext fun told => ?_)
          obtain ⟨published, failed⟩ := told
          have hroom : (#[] : Array Event).size < size.toNat := positive
          rw [ih hroom, Feed.after_nil]
          rfl
        · rw [if_neg hfull]
          exact ih (by omega)

theorem deliverLines_eq_publishAll :
    deliverLines sink size 1 #[] published lines
      = publishAll sink (readEvents lines).failure published
          ((readEvents lines).groups size.toNat positive) := by
  have hroom : (#[] : Array Event).size < size.toNat := positive
  exact deliverLines_eq_from positive hroom

end Lines

/-- A group that was handed to the sink, with what happened then and what was reported. -/
structure Batch where
  group : List Event
  trace : List Exchange
  report : BatchReport

namespace Batch

/-- The batch was published through the sink, and the events that were marked meanwhile were reported. -/
structure Published (sink : Sink) (batch : Batch) : Prop where
  path : Path (sink.publishBatch batch.group).run batch.trace (.ok batch.report)
  marked : ∃ u ending, Path (sink.handleBatch batch.group).run u ending ∧ batch.trace = outward u ∧
    batch.report.processed = marks u

theorem published_of_path {sink : Sink} {batch : Batch}
    (h : Path (sink.publishBatch batch.group).run batch.trace (.ok batch.report)) :
    batch.Published sink := by
  obtain ⟨u, ending, hu, -, htrace, hreport⟩ := Sink.path_of_publishBatch h
  exact ⟨h, u, ending, hu, htrace, Sink.processed_of_reportOf hreport.symm⟩

def Delivered (sink : Sink) (batch : Batch) : Prop :=
  batch.Published sink ∧ batch.report.failure = none

def traces (batches : List Batch) : List Exchange := batches.flatMap (·.trace)

def acknowledged (batches : List Batch) : List Event := batches.flatMap (·.report.processed)

theorem delivered_cons {sink : Sink} {first : Batch} {batches : List Batch} (hfirst : first.Delivered sink)
    (h : ∀ batch ∈ batches, batch.Delivered sink) : ∀ batch ∈ first :: batches, batch.Delivered sink :=
  List.forall_mem_cons.mpr ⟨hfirst, h⟩

theorem published_of_delivered {sink : Sink} {batches : List Batch} (h : ∀ batch ∈ batches, batch.Delivered sink) :
    ∀ batch ∈ batches, batch.Published sink := fun batch hbatch => (h batch hbatch).1

theorem published_concat {sink : Sink} {batches : List Batch} {last : Batch}
    (h : ∀ batch ∈ batches, batch.Delivered sink) (hlast : last.Published sink) :
    ∀ batch ∈ batches ++ [last], batch.Published sink :=
  List.forall_mem_append.mpr ⟨published_of_delivered h, List.forall_mem_singleton.mpr hlast⟩

theorem traces_singleton (batch : Batch) : traces [batch] = batch.trace := List.append_nil _

theorem acknowledged_singleton (batch : Batch) : acknowledged [batch] = batch.report.processed :=
  List.append_nil _

theorem add_acknowledged_cons (published : Nat) (first : Batch) (batches : List Batch) :
    published + (acknowledged (first :: batches)).length
      = published + first.report.processed.length + (acknowledged batches).length := by
  rw [acknowledged, List.flatMap_cons, List.length_append, Nat.add_assoc]
  rfl

end Batch

open Batch (traces acknowledged delivered_cons traces_singleton acknowledged_singleton add_acknowledged_cons)

/-- How groups are published after so many events. All of them are delivered, and it is told what cut their
feed, if anything did; or those before one of them, that was reported to fail or raised a failure. -/
inductive Delivers (sink : Sink) (cut : Option Failure) (published : Nat) (groups : List (List Event)) :
    List Exchange → Except Failure Ending → Prop where
  | complete (batches : List Batch) (all : groups = batches.map (·.group))
      (delivered : ∀ batch ∈ batches, batch.Delivered sink) (whole : cut = none) :
      Delivers sink cut published groups (traces batches)
        (.ok (.complete (published + (acknowledged batches).length)))
  | cut (batches : List Batch) {failure : Failure} (all : groups = batches.map (·.group))
      (delivered : ∀ batch ∈ batches, batch.Delivered sink) (bad : cut = some failure) :
      Delivers sink cut published groups (traces batches) (.error failure)
  | failed (batches : List Batch) {last : Batch} {later : List (List Event)} {failure : Failure}
      (split : groups = batches.map (·.group) ++ last.group :: later)
      (delivered : ∀ batch ∈ batches, batch.Delivered sink)
      (tried : last.Published sink) (reported : last.report.failure = some failure) :
      Delivers sink cut published groups
        (traces (batches ++ [last]) ++ [⟨.note (.batchFailed (published + (acknowledged (batches ++ [last])).length)
          last.group.length failure.message), ()⟩])
        (.ok (.failed (published + (acknowledged (batches ++ [last])).length)))
  | raised (batches : List Batch) {group : List Event} {later : List (List Event)} {t : List Exchange}
      {failure : Failure} (split : groups = batches.map (·.group) ++ group :: later)
      (delivered : ∀ batch ∈ batches, batch.Delivered sink)
      (raised : Path (sink.publishBatch group).run t (.error failure)) :
      Delivers sink cut published groups (traces batches ++ t) (.error failure)

section Groups
variable {sink : Sink} {cut : Option Failure} {published : Nat} {group : List Event}
  {groups : List (List Event)} {t : List Exchange}

theorem path_publishGroup {r : Except Failure (Nat × Bool)}
    (h : Path (publishGroup sink group published).run t r) :
    (∃ failure, Path (sink.publishBatch group).run t (.error failure) ∧ r = .error failure) ∨
    ∃ batch : Batch, batch.group = group ∧ batch.Published sink ∧
      ((batch.report.failure = none ∧ t = batch.trace ∧
        r = .ok (published + batch.report.processed.length, false)) ∨
      ∃ failure, batch.report.failure = some failure ∧
        t = batch.trace ++ [⟨.note (.batchFailed (published + batch.report.processed.length) group.length
          failure.message), ()⟩] ∧
        r = .ok (published + batch.report.processed.length, true)) := by
  rcases Action.path_bind_iff.mp h with ⟨failure, hraised, rfl⟩ | ⟨report, t₁, t₂, hreport, hrest, rfl⟩
  · exact .inl ⟨failure, hraised, rfl⟩
  right
  refine ⟨⟨group, t₁, report⟩, rfl, Batch.published_of_path hreport, ?_⟩
  cases hfailure : report.failure with
  | none =>
    simp only [hfailure] at hrest
    obtain ⟨rfl, rfl⟩ := Action.path_pure_iff.mp hrest
    exact .inl ⟨rfl, List.append_nil t₁, rfl⟩
  | some failure =>
    simp only [hfailure] at hrest
    obtain ⟨u, rfl, hpure⟩ := Action.path_note_bind_iff.mp hrest
    obtain ⟨rfl, rfl⟩ := Action.path_pure_iff.mp hpure
    exact .inr ⟨failure, rfl, rfl, rfl⟩

theorem Delivers.cons {first : Batch} {r : Except Failure Ending} (delivered : first.Delivered sink)
    (h : Delivers sink cut (published + first.report.processed.length) groups t r) :
    Delivers sink cut published (first.group :: groups) (first.trace ++ t) r := by
  cases h with
  | complete batches split hdelivered whole =>
    rw [← add_acknowledged_cons]
    exact .complete (first :: batches) (congrArg _ split) (delivered_cons delivered hdelivered) whole
  | cut batches split hdelivered bad =>
    exact .cut (first :: batches) (congrArg _ split) (delivered_cons delivered hdelivered) bad
  | failed batches split hdelivered tried reported =>
    rw [← add_acknowledged_cons, ← List.append_assoc]
    exact .failed (first :: batches) (congrArg _ split) (delivered_cons delivered hdelivered) tried reported
  | raised batches split hdelivered raised =>
    rw [← List.append_assoc]
    exact .raised (first :: batches) (congrArg _ split) (delivered_cons delivered hdelivered) raised

theorem delivers_of_path {r : Except Failure Ending}
    (h : Path (publishAll sink cut published groups).run t r) :
    Delivers sink cut published groups t r := by
  induction groups generalizing published t with
  | nil =>
    cases cut with
    | none =>
      obtain ⟨rfl, rfl⟩ := Action.path_pure_iff.mp h
      exact .complete [] rfl (List.forall_mem_nil _) rfl
    | some failure =>
      obtain ⟨rfl, rfl⟩ := Action.path_throw_iff.mp h
      exact .cut [] rfl (List.forall_mem_nil _) rfl
  | cons group groups ih =>
    rcases Action.path_bind_iff.mp h with ⟨failure, hgroup, rfl⟩ | ⟨told, t₁, t₂, hgroup, hrest, rfl⟩
    · rcases path_publishGroup hgroup with ⟨e, hraised, he⟩ |
        ⟨batch, -, -, ⟨-, -, hr⟩ | ⟨e, -, -, hr⟩⟩
      · obtain rfl := Except.error.inj he
        exact .raised [] rfl (List.forall_mem_nil _) hraised
      · cases hr
      · cases hr
    · rcases path_publishGroup hgroup with ⟨e, -, hr⟩ |
        ⟨batch, rfl, hpublished, ⟨hnone, rfl, hr⟩ | ⟨failure, hfailure, rfl, hr⟩⟩
      · cases hr
      · obtain rfl := Except.ok.inj hr
        exact (ih hrest).cons ⟨hpublished, hnone⟩
      · obtain rfl := Except.ok.inj hr
        obtain ⟨rfl, rfl⟩ := Action.path_pure_iff.mp hrest
        have hfailed : Delivers sink cut published (batch.group :: groups) _ _ :=
          .failed [] rfl (List.forall_mem_nil _) hpublished hfailure
        rw [List.nil_append, traces_singleton, acknowledged_singleton] at hfailed
        rwa [List.append_nil]

end Groups

/-- The number of published events is told in the end if nothing failed. -/
def stopping : Except Failure Ending → List Exchange
  | .ok (.complete published) => [⟨.note (.serviceStop published), ()⟩]
  | _ => []

/-- What the service does with a feed. It starts nothing when logging cannot be set up, and reads nothing
when there is no connection; otherwise it delivers the groups of the feed through the sink of its settings,
and closes that in every case. -/
inductive Serves (environment : Environment) (settings : Settings) (source : ClientSource) (feed : Feed) :
    List Exchange → Except Failure Nat → Prop where
  | unlogged {failure : Failure} (logging : RootLogger.configure environment .untouched = .error failure) :
      Serves environment settings source feed [] (.error failure)
  | unconnected {fault : Fault} (standard : source = .standard) :
      Serves environment settings source feed
        [⟨.note (.serviceStart settings.region settings.endpoint settings.batchSize), ()⟩,
          ⟨.connect ⟨settings.region, settings.endpoint, settings.profile⟩, .error fault⟩]
        (.error (.outside fault))
  | served {sink closed : Sink} {opening delivery closing : List Exchange} {ending : Except Failure Ending}
      (positive : 0 < settings.batchSize.toNat)
      (opened : Path (Sink.ofSettings settings source).run opening (.ok sink))
      (delivers : Delivers sink feed.failure 0 (feed.groups settings.batchSize.toNat positive) delivery ending)
      (closes : Path sink.close closing closed) :
      Serves environment settings source feed
        (⟨.note (.serviceStart settings.region settings.endpoint settings.batchSize), ()⟩ ::
          (opening ++ (delivery ++ closing) ++ stopping ending))
        (ending.map Ending.exitCode)

section Deliver
variable {environment : Environment} {settings : Settings} {source : ClientSource} {lines : List String}
  {t : List Exchange} {r : Except Failure Nat}

theorem path_conclusion {sink : Sink} {action : Action Ending}
    (h : Path (do
      let ending ← sink.closingAfter action
      match ending with
      | .complete published => Action.note (.serviceStop published)
      | .failed _ => pure ()
      return ending.exitCode : Action Nat).run t r) :
    ∃ delivery closing closed ending, Path action.run delivery ending ∧ Path sink.close closing closed ∧
      t = delivery ++ closing ++ stopping ending ∧ r = ending.map Ending.exitCode := by
  rcases Action.path_bind_iff.mp h with ⟨failure, hclosing, rfl⟩ | ⟨ending, t₁, t₂, hclosing, hrest, rfl⟩
  · obtain ⟨delivery, closing, closed, haction, hclose, rfl⟩ := Sink.path_closingAfter hclosing
    exact ⟨delivery, closing, closed, .error failure, haction, hclose, (List.append_nil _).symm, rfl⟩
  · obtain ⟨delivery, closing, closed, haction, hclose, rfl⟩ := Sink.path_closingAfter hclosing
    refine ⟨delivery, closing, closed, .ok ending, haction, hclose, ?_⟩
    cases ending with
    | complete published =>
      obtain ⟨u, rfl, hpure⟩ := Action.path_note_bind_iff.mp hrest
      obtain ⟨rfl, rfl⟩ := Action.path_pure_iff.mp hpure
      exact ⟨rfl, rfl⟩
    | failed published =>
      obtain ⟨rfl, rfl⟩ := Action.path_pure_iff.mp hrest
      exact ⟨rfl, rfl⟩

theorem serves_of_deliver (sound : settings.Sound) (h : Path (deliver settings source lines).run t r) :
    Serves environment settings source (readEvents lines) t r := by
  have positive : 0 < settings.batchSize.toNat := by
    have hsize := sound.batchSize
    omega
  obtain ⟨u, rfl, hu⟩ := Action.path_note_bind_iff.mp h
  rcases Action.path_bind_iff.mp hu with ⟨failure, hopen, rfl⟩ | ⟨sink, opening, t₂, hopen, hrest, rfl⟩
  · rcases Sink.path_ofSettings sound hopen with ⟨fault, hsource, hfault, rfl⟩ | ⟨_, _, -, hr⟩
    · obtain rfl := Except.error.inj hfault
      exact .unconnected hsource
    · cases hr
  · obtain ⟨delivery, closing, closed, ending, hlines, hclose, rfl, rfl⟩ := path_conclusion hrest
    rw [deliverLines_eq_publishAll positive] at hlines
    rw [← List.append_assoc]
    exact .served positive hopen (delivers_of_path hlines) hclose

/-- Whatever the outside does, the lines are told as a feed and the service does with it what is asked of it:
with settings that are given or with those of its environment. -/
theorem run_serves {σ : Type} (world : World σ) (s : σ) (environment : Environment)
    (given : Option Settings) (source : ClientSource) (lines : List String) (settings : Settings)
    (chosen : given = some settings ∧ settings.Accepted ∨
      given = none ∧ Settings.load environment [] = .ok settings) :
    Feed.Tells 1 lines (readEvents lines) ∧
    Serves environment settings source (readEvents lines)
      (Interaction.history world (run environment given source lines).run s)
      (Interaction.run world (run environment given source lines).run s).1 := by
  refine ⟨Feed.tells_readFrom 1 lines, ?_⟩
  have hpath := Interaction.path_run world (run environment given source lines).run s
  rcases Action.path_bind_iff.mp hpath with ⟨failure, hlogging, hr⟩ | ⟨logger, t₁, t₂, hlogging, hrest, ht⟩
  · obtain ⟨ht, hfailure⟩ := Action.path_ofExcept_iff.mp hlogging
    rw [ht, hr]
    exact .unlogged hfailure.symm
  · obtain ⟨rfl, -⟩ := Action.path_ofExcept_iff.mp hlogging
    rw [ht]
    rcases chosen with ⟨rfl, accepted⟩ | ⟨rfl, loaded⟩
    · exact serves_of_deliver accepted.sound hrest
    · rw [loaded] at hrest
      exact serves_of_deliver (Settings.sound_of_load loaded) hrest

end Deliver

section Cut

def cutLines : List String := [" ", "\x7b\"destination\":\"d\"\x7d", "]"]

def bareEvent : Event := ⟨.null, .null, Text.ofString "d"⟩

def cutFailure : Failure := .badLine 3 [⟨none, .notJson "]"⟩]

theorem readEvents_cutLines : readEvents cutLines = ⟨[bareEvent], some cutFailure⟩ := by
  have hblank : readLine " " = .ok none := rfl
  have hjson : Json.read? "\x7b\"destination\":\"d\"\x7d".toList
      = some (.object [("destination", .string "d")]) := rfl
  have hevent : readLine "\x7b\"destination\":\"d\"\x7d" = .ok (some bareEvent) := by
    rw [readLine, if_neg (by decide), Event.ofLine, hjson]
    rfl
  have hbad : readLine "]" = .error [⟨none, .notJson "]"⟩] := rfl
  simp only [readEvents, cutLines, Feed.readFrom, hblank, hevent, hbad]
  rfl

/-- A run over these lines, with a client that is given and settings from the environment. -/
def cutRun : Action Nat :=
  run [(Settings.regionName, "r")] none (.given ⟨"client", false⟩) cutLines

theorem load_cutRun :
    Settings.load [(Settings.regionName, "r")] [] = .ok (.ofRegion (Text.ofString "r")) :=
  Settings.load_region rfl

theorem cutRun_eq :
    cutRun = (do
      Action.note (.serviceStart (Text.ofString "r") none 2048)
      Action.note (.clientCreated (.custom "client"))
      throw cutFailure) := by
  have hlogging : RootLogger.configure [(Settings.regionName, "r")] .untouched
      = .ok ⟨20, [some RootLogger.format]⟩ := rfl
  have positive : 0 < (Settings.ofRegion (Text.ofString "r")).batchSize.toNat := by decide
  have hgroups : Feed.groups _ positive ⟨[bareEvent], some cutFailure⟩ = [] := by
    have hshort : [bareEvent].length < (Settings.ofRegion (Text.ofString "r")).batchSize.toNat := by decide
    exact Feed.groups_after_of_bad hshort
  simp only [cutRun, run, deliver, hlogging, load_cutRun, Except.mapError, Action.ofExcept_ok_bind,
    deliverLines_eq_publishAll positive, readEvents_cutLines, hgroups, publishAll]
  rfl

/-- An event that fills no group goes unpublished when a bad line follows it. -/
theorem kept_event_unpublished :
    (Settings.load [(Settings.regionName, "r")] [] = .ok (.ofRegion (Text.ofString "r")) ∧
      Feed.Tells 1 cutLines ⟨[bareEvent], some cutFailure⟩ ∧
      Serves [(Settings.regionName, "r")] (.ofRegion (Text.ofString "r")) (.given ⟨"client", false⟩)
        ⟨[bareEvent], some cutFailure⟩ (Interaction.history World.playing cutRun.run [])
        (Interaction.run World.playing cutRun.run []).1) ∧
    (Interaction.run World.playing cutRun.run []).1 = .error cutFailure ∧
    attempts (Interaction.history World.playing cutRun.run []) = [] := by
  constructor
  · have hserves := run_serves World.playing [] [(Settings.regionName, "r")] none
      (.given ⟨"client", false⟩) cutLines _ (.inr ⟨rfl, load_cutRun⟩)
    rw [readEvents_cutLines] at hserves
    exact ⟨load_cutRun, hserves⟩
  · rw [cutRun_eq]
    exact ⟨rfl, rfl⟩

end Cut

end Service

end EventDelivery

import EventDelivery.Proofs.Accepted
import EventDelivery.Proofs.Report
import EventDelivery.Proofs.Service

/-! How a run over lines may end. Every event that is accepted has a record, so neither the exit code one nor
any failure that a run raises is due to the making of records. -/

namespace EventDelivery
open Interaction (Path)
set_option autoImplicit false

theorem Feed.mem_events_of_mem_groups {feed : Feed} {size : Nat} {positive : 0 < size} {group : List Event}
    {event : Event} (hgroup : group ∈ feed.groups size positive) (hevent : event ∈ group) :
    event ∈ feed.events := by
  have hwindow := List.mem_of_mem_filter hgroup
  rw [← flatten_windows size positive feed.events]
  apply List.mem_flatten.mpr
  exact ⟨group, hwindow, hevent⟩

theorem Conclusion.delivery_of_isReported {stream destination : Text} {budget made : Nat}
    {records : List Record} {log : List Attempt} {t : List Exchange} {failure : Failure}
    (h : Conclusion stream destination budget made records log t (.error failure))
    (reported : failure.isReported) : ∃ report, failure = .delivery report := by
  cases h with
  | exhausted => exact ⟨_, rfl⟩
  | broken split reply final =>
    -- a failed request is not final, and no other failure of the writer is reported
    obtain ⟨message, code, rfl⟩ := Writer.transport_of_reply reply reported
    cases final
  | cancelled => cases reported

namespace Sink

section Batches
variable {sink : Sink} {events : List Event} {w : Nat} {failure : Failure} {t u : List Exchange}

theorem delivery_of_stopsIn (h : StopsIn sink events w (.publication failure) u)
    (reported : failure.isReported) : ∃ report, failure = .delivery report := by
  obtain ⟨t, -, hcourse⟩ := h
  obtain ⟨records, t₁, t₂, -, hne, hpublished, -, -⟩ := unpublished_of_course hcourse rfl
  have hconcludes := (published_of_course (course_of_publishWindow hne hpublished) hne).concludes
  exact hconcludes.delivery_of_isReported reported

variable (recorded : ∀ event ∈ events, ∀ position : Nat,
  ∃ record, event.toRecord sink.nullKey (.int position) = .ok record)
include recorded

theorem not_stopsIn_conversion : ¬ StopsIn sink events w (.conversion failure) u := by
  rintro ⟨t, -, hcourse⟩
  obtain ⟨⟨event, i⟩, hmem, hfailed⟩ := exists_of_mapM_eq_error (unconverted_of_course hcourse rfl)
  have hevent : event ∈ events := by
    apply List.mem_of_mem_drop
    apply List.mem_of_mem_take
    exact (List.mem_zipIdx' hmem).2 ▸ List.getElem_mem _
  obtain ⟨record, hrecord⟩ := recorded event hevent i
  have hboth := hrecord.symm.trans hfailed
  cases hboth

/-- A batch whose events all have records reports no failure but that of a delivery that was given up, and
what it raises comes from publishing a window. -/
theorem path_publishBatch_of_recorded (opened : sink.isOpen = true) {r : Except Failure BatchReport}
    (h : Path (sink.publishBatch events).run t r) :
    (∃ report, r = .ok report
      ∧ ∀ failure, report.failure = some failure → ∃ delivery, failure = .delivery delivery)
    ∨ ∃ failure u w, r = .error failure ∧ t = outward u ∧
        StopsIn sink events w (.publication failure) u := by
  obtain ⟨u, ending, hu, hagree, houtward, rfl⟩ := path_of_publishBatch h
  rcases ((path_handleBatch_iff opened).mp hu).all_or_stopsIn hagree with
    ⟨rfl, -, -⟩ | ⟨n, halt, rfl, hwindow, hstops⟩
  · left
    refine ⟨_, rfl, ?_⟩
    intro failure hfailed
    cases hfailed
  · cases halt with
    | conversion cause => exact absurd hstops (not_stopsIn_conversion recorded)
    | acknowledgement fault => cases hwindow
    | publication cause =>
      rw [Halt.failure, reportOf]
      by_cases hreported : cause.isReported
      · left
        rw [if_pos hreported]
        refine ⟨_, rfl, ?_⟩
        intro failure hfailed
        obtain rfl := Option.some.inj hfailed
        exact delivery_of_stopsIn hstops hreported
      · right
        rw [if_neg hreported]
        exact ⟨cause, u, n, rfl, houtward, hstops⟩

end Batches

end Sink

namespace Service

open Batch (traces traces_singleton)

section Feeds
variable (environment : Environment) (given : Option Settings) (source : ClientSource) (feed : Feed)
  (history : List Exchange)

/-- The settings that a run uses are given to it, or else those of its environment. -/
def Chosen (settings : Settings) : Prop :=
  given = some settings ∨ given = none ∧ Settings.load environment [] = .ok settings

/-- A group of the feed was published through a sink of the settings, its report told of a delivery that was
given up, and that was noted. -/
def GaveUp (settings : Settings) : Prop :=
  ∃ (positive : 0 < settings.batchSize.toNat) (sink : Sink) (opening : List Exchange) (batch : Batch)
    (delivery : DeliveryReport) (published : Nat),
    Path (Sink.ofSettings settings source).run opening (.ok sink) ∧
    batch.group ∈ feed.groups settings.batchSize.toNat positive ∧ batch.Published sink ∧
    batch.report.failure = some (.delivery delivery) ∧
    batch.trace ++ [⟨.note (.batchFailed published batch.group.length (Failure.delivery delivery).message), ()⟩]
      <:+: history

/-- What a run raises: logging cannot be set up, there are no settings or no connection, a line is no event, or
a window of a group fails while its records are published. -/
inductive Raised : Failure → Prop where
  | logging {failure : Failure} (unset : RootLogger.configure environment .untouched = .error failure) :
      Raised failure
  | settings {issues : List Issue} (absent : given = none)
      (refused : Settings.load environment [] = .error issues) : Raised (.invalid issues)
  | connection {connection : Connection} {fault : Fault}
      (refused : (⟨.connect connection, .error fault⟩ : Exchange) ∈ history) : Raised (.outside fault)
  | line {failure : Failure} (bad : feed.failure = some failure) : Raised failure
  | publication {settings : Settings} {positive : 0 < settings.batchSize.toNat} {sink : Sink}
      {opening u : List Exchange} {group : List Event} {failure : Failure} {w : Nat}
      (chosen : Chosen environment given settings)
      (opened : Path (Sink.ofSettings settings source).run opening (.ok sink))
      (ofFeed : group ∈ feed.groups settings.batchSize.toNat positive)
      (stops : Sink.StopsIn sink group w (.publication failure) u)
      (happened : outward u <:+: history) : Raised failure

end Feeds

section Runs
variable {environment : Environment} {given : Option Settings} {settings : Settings} {source : ClientSource}
  {feed : Feed} {t : List Exchange}

theorem Delivers.ends_of_recorded {sink : Sink} {cut : Option Failure} {published : Nat}
    {groups : List (List Event)} {ending : Except Failure Ending} (opened : sink.isOpen = true)
    (h : Delivers sink cut published groups t ending)
    (recorded : ∀ group ∈ groups, ∀ event ∈ group, ∀ position : Nat,
      ∃ record, event.toRecord sink.nullKey (.int position) = .ok record) :
    (∀ n, ending = .ok (.failed n) → ∃ (batch : Batch) (delivery : DeliveryReport),
      batch.group ∈ groups ∧ batch.Published sink ∧ batch.report.failure = some (.delivery delivery) ∧
      batch.trace ++ [⟨.note (.batchFailed n batch.group.length (Failure.delivery delivery).message), ()⟩]
        <:+: t)
    ∧ ∀ failure, ending = .error failure → cut = some failure ∨
        ∃ group ∈ groups, ∃ u w, Sink.StopsIn sink group w (.publication failure) u ∧ outward u <:+: t := by
  cases h with
  | complete batches all delivered whole =>
    refine ⟨?_, nofun⟩
    intro n hn
    cases hn
  | cut batches all delivered bad =>
    refine ⟨nofun, ?_⟩
    intro failure hfailure
    obtain rfl := Except.error.inj hfailure
    exact .inl bad
  | @failed batches last later failure split delivered tried reported =>
    have hmem : last.group ∈ groups := by
      rw [split]
      exact List.mem_append_right _ List.mem_cons_self
    refine ⟨?_, nofun⟩
    intro n hn
    obtain rfl := Ending.failed.inj (Except.ok.inj hn)
    rcases Sink.path_publishBatch_of_recorded (recorded _ hmem) opened tried.path with
      ⟨report, hreport, hfailures⟩ | ⟨cause, u, w, hcause, -, -⟩
    · obtain rfl := Except.ok.inj hreport
      obtain ⟨delivery, rfl⟩ := hfailures failure reported
      refine ⟨last, delivery, hmem, tried, reported, ?_⟩
      have htraces : traces (batches ++ [last]) = traces batches ++ last.trace := by
        rw [traces, List.flatMap_append, ← traces, ← traces, traces_singleton]
      rw [htraces, List.append_assoc]
      exact (List.suffix_append _ _).isInfix
    · cases hcause
  | @raised batches group later u failure split delivered raised =>
    have hmem : group ∈ groups := by
      rw [split]
      exact List.mem_append_right _ List.mem_cons_self
    refine ⟨nofun, ?_⟩
    intro cause hcause
    obtain rfl := Except.error.inj hcause
    right
    rcases Sink.path_publishBatch_of_recorded (recorded _ hmem) opened raised with
      ⟨report, hreport, -⟩ | ⟨cause, v, w, hcause, rfl, hstops⟩
    · cases hreport
    · obtain rfl := Except.error.inj hcause
      refine ⟨group, hmem, v, w, hstops, ?_⟩
      exact (List.suffix_append _ _).isInfix

/-- A feed whose events all have records is served without a failure that is due to them. -/
theorem Serves.ends_of_recorded {r : Except Failure Nat} (chosen : Chosen environment given settings)
    (sound : settings.Sound) (h : Serves environment settings source feed t r)
    (recorded : ∀ event ∈ feed.events, ∀ position : Nat,
      ∃ record, event.toRecord settings.nullKey (.int position) = .ok record) :
    (r = .ok 1 → GaveUp source feed t settings)
      ∧ ∀ failure, r = .error failure → Raised environment given source feed t failure := by
  cases h with
  | unlogged unset =>
    refine ⟨nofun, ?_⟩
    intro failure hfailure
    obtain rfl := Except.error.inj hfailure
    exact .logging unset
  | unconnected standard =>
    refine ⟨nofun, ?_⟩
    intro failure hfailure
    obtain rfl := Except.error.inj hfailure
    exact .connection (List.mem_cons_of_mem _ List.mem_cons_self)
  | @served sink closed opening delivery closing ending positive opened delivers closes =>
    rcases Sink.path_ofSettings sound opened with ⟨fault, -, hfault, -⟩ | ⟨client, naming, -, hsink⟩
    · cases hfault
    obtain rfl := Except.ok.inj hsink
    obtain ⟨hfailed, hraised⟩ := delivers.ends_of_recorded rfl fun group hgroup event hevent =>
      recorded event (Feed.mem_events_of_mem_groups hgroup hevent)
    have hhappened : delivery <:+:
        ⟨.note (.serviceStart settings.region settings.endpoint settings.batchSize), ()⟩ ::
          (opening ++ (delivery ++ closing) ++ stopping ending) := by
      apply List.infix_cons
      apply List.IsInfix.trans _ (List.prefix_append _ _).isInfix
      apply List.IsInfix.trans _ (List.suffix_append _ _).isInfix
      exact (List.prefix_append _ _).isInfix
    constructor
    · intro hone
      cases ending with
      | error failure => cases hone
      | ok ended =>
        cases ended with
        | complete published => cases hone
        | failed published =>
          obtain ⟨batch, report, hmem, hpublished, hreport, htrace⟩ := hfailed published rfl
          exact ⟨positive, _, opening, batch, report, published, opened, hmem, hpublished, hreport,
            htrace.trans hhappened⟩
    · intro failure hfailure
      cases ending with
      | ok ended => cases hfailure
      | error cause =>
        obtain rfl := Except.error.inj hfailure
        rcases hraised cause rfl with hcut | ⟨group, hmem, u, w, hstops, htrace⟩
        · exact .line hcut
        · exact .publication chosen opened hmem hstops (htrace.trans hhappened)

end Runs

section Paths
variable {environment : Environment} {given : Option Settings} {source : ClientSource} {lines : List String}
  {t : List Exchange} {r : Except Failure Nat}

theorem serves_of_path (accepted : ∀ settings, given = some settings → settings.Accepted)
    (h : Path (run environment given source lines).run t r) :
    (∃ settings, Chosen environment given settings ∧ settings.Sound
      ∧ Serves environment settings source (readEvents lines) t r)
    ∨ ∃ failure, r = .error failure
        ∧ Raised environment given source (readEvents lines) t failure := by
  rcases Action.path_bind_iff.mp h with ⟨failure, hlogging, rfl⟩ | ⟨logger, t₁, t₂, hlogging, hrest, rfl⟩
  · obtain ⟨-, hfailure⟩ := Action.path_ofExcept_iff.mp hlogging
    exact .inr ⟨failure, rfl, .logging hfailure.symm⟩
  · obtain ⟨rfl, -⟩ := Action.path_ofExcept_iff.mp hlogging
    cases given with
    | some settings =>
      have hsound := (accepted settings rfl).sound
      exact .inl ⟨settings, .inl rfl, hsound, serves_of_deliver hsound hrest⟩
    | none =>
      cases hload : Settings.load environment [] with
      | ok settings =>
        have hsound := Settings.sound_of_load hload
        rw [hload] at hrest
        exact .inl ⟨settings, .inr ⟨rfl, hload⟩, hsound, serves_of_deliver hsound hrest⟩
      | error issues =>
        rw [hload] at hrest
        rcases Action.path_bind_iff.mp hrest with ⟨failure, hload', rfl⟩ | ⟨_, _, _, hload', -, -⟩
        · obtain ⟨-, hfailure⟩ := Action.path_ofExcept_iff.mp hload'
          cases hfailure
          exact .inr ⟨_, rfl, .settings rfl hload⟩
        · obtain ⟨-, hsettings⟩ := Action.path_ofExcept_iff.mp hload'
          cases hsettings

end Paths

/-- Each event of the lines has a record, whatever null key it is made with. A run over the lines with a null
key that has an encoding ends in the exit code one only when a delivery is given up, and raises nothing that
comes from making records. -/
theorem run_ends_of_accepted (lines : List String) :
    (∀ event ∈ (readEvents lines).events, ∀ (key : Text) (u : String) (position : Nat), key ≠ [] →
      key.toString? = some u → ∃ record, event.toRecord key (.int position) = .ok record) ∧
    ∀ {σ : Type} (world : World σ) (s : σ) (environment : Environment) (given : Option Settings)
      (source : ClientSource), (∀ settings, given = some settings → settings.Accepted) →
      (∀ settings, Chosen environment given settings → ∃ key, settings.nullKey.toString? = some key) →
      ((Interaction.run world (run environment given source lines).run s).1 = .ok 1 →
        ∃ settings, Chosen environment given settings ∧ GaveUp source (readEvents lines)
          (Interaction.history world (run environment given source lines).run s) settings) ∧
      ∀ failure, (Interaction.run world (run environment given source lines).run s).1 = .error failure →
        Raised environment given source (readEvents lines)
          (Interaction.history world (run environment given source lines).run s) failure := by
  constructor
  · intro event hevent key u position hkey hu
    exact Event.exists_toRecord_of_mem_readEvents hevent hkey hu position
  · intro σ world s environment given source accepted string
    have hpath := Interaction.path_run world (run environment given source lines).run s
    rcases serves_of_path accepted hpath with ⟨settings, hchosen, hsound, hserves⟩ | ⟨failure, hfailure, hraised⟩
    · obtain ⟨key, hkey⟩ := string settings hchosen
      have hrecorded : ∀ event ∈ (readEvents lines).events, ∀ position : Nat,
          ∃ record, event.toRecord settings.nullKey (.int position) = .ok record := by
        intro event hevent position
        exact Event.exists_toRecord_of_mem_readEvents hevent hsound.nullKey hkey position
      obtain ⟨hone, hraised⟩ := hserves.ends_of_recorded hchosen hsound hrecorded
      exact ⟨fun h => ⟨settings, hchosen, hone h⟩, hraised⟩
    · rw [hfailure]
      refine ⟨nofun, ?_⟩
      intro cause hcause
      obtain rfl := Except.error.inj hcause
      exact hraised

section Refused

def bareLine : String := "\x7b\"destination\":\"d\"\x7d"

theorem ofLine_bareLine : Event.ofLine bareLine = .ok bareEvent := by
  have hjson : Json.read? bareLine.toList = some (.object [("destination", .string "d")]) := rfl
  rw [Event.ofLine, hjson]
  rfl

theorem mapM_bareLines (n : Nat) :
    (Feed.written (List.replicate n bareLine)).mapM Event.ofLine = .ok (List.replicate n bareEvent) := by
  induction n with
  | zero => rfl
  | succ n ih => exact Feed.mapM_written_cons (by decide) ofLine_bareLine ih

theorem readEvents_bareLine : readEvents [bareLine] = ⟨[bareEvent], none⟩ :=
  Feed.readFrom_of_written (mapM_bareLines 1)

def bareRun : Action Nat := run [(Settings.regionName, "r")] none (.given ⟨"client", false⟩) [bareLine]

def bareSink : Sink := { Sink.plain with naming := StreamNaming.identity.apply }

theorem bareRun_eq :
    bareRun = (do
      Action.note (.serviceStart (Text.ofString "r") none 2048)
      Action.note (.clientCreated (.custom "client"))
      let ending ← bareSink.closingAfter (publishAll bareSink none 0 [[bareEvent]])
      match ending with
      | .complete published => Action.note (.serviceStop published)
      | .failed _ => pure ()
      return ending.exitCode) := by
  have hlogging : RootLogger.configure [(Settings.regionName, "r")] .untouched
      = .ok ⟨20, [some RootLogger.format]⟩ := rfl
  have positive : 0 < (Settings.ofRegion (Text.ofString "r")).batchSize.toNat := by decide
  have hgroups : Feed.groups _ positive ⟨[bareEvent], none⟩ = [[bareEvent]] := by
    rw [Feed.groups_of_whole, windows_of_length_le (List.cons_ne_nil _ _) positive]
  have hsink : Sink.ofSettings (Settings.ofRegion (Text.ofString "r")) (.given ⟨"client", false⟩)
      = (do Action.note (.clientCreated (.custom "client")); return bareSink) := rfl
  simp only [bareRun, run, deliver, hlogging, load_cutRun, Except.mapError, Action.ofExcept_ok_bind,
    deliverLines_eq_publishAll positive, readEvents_bareLine, hgroups, hsink, bind_assoc, pure_bind]
  rfl

def neverTaken : List Payload := List.replicate 5 (Payload.ofCodes [.bool true])

theorem run_bareRun : (Interaction.run World.playing bareRun.run neverTaken).1 = .ok 1 := by
  have hwindows : windows windowSize windowSize_pos [bareEvent] = [[bareEvent]] :=
    windows_of_length_le (List.cons_ne_nil _ _) (by decide)
  rw [bareRun_eq, publishAll, publishGroup, Sink.publishBatch, Sink.handleBatch_of_isOpen rfl, hwindows]
  rfl

/-- The exit code one of this run comes from the delivery of its event. -/
theorem refused_event_given_up :
    (∃ record, bareEvent.toRecord (Text.ofString "other") (.int (7 : Nat)) = .ok record) ∧
    (∀ settings, Chosen [(Settings.regionName, "r")] none settings →
      ∃ key, settings.nullKey.toString? = some key) ∧
    ∃ settings, Chosen [(Settings.regionName, "r")] none settings ∧
      GaveUp (.given ⟨"client", false⟩) (readEvents [bareLine])
        (Interaction.history World.playing bareRun.run neverTaken) settings := by
  have hstring (settings : Settings) (h : Chosen [(Settings.regionName, "r")] none settings) :
      ∃ key, settings.nullKey.toString? = some key := by
    rcases h with hgiven | ⟨-, loaded⟩
    · cases hgiven
    · obtain rfl := Except.ok.inj (load_cutRun.symm.trans loaded)
      exact ⟨"default", Text.toString?_ofString "default"⟩
  obtain ⟨hrecords, hends⟩ := run_ends_of_accepted [bareLine]
  refine ⟨?_, hstring, ?_⟩
  · apply hrecords bareEvent _ (Text.ofString "other") "other" 7 (by decide) (Text.toString?_ofString "other")
    rw [readEvents_bareLine]
    exact List.mem_cons_self
  · obtain ⟨hone, -⟩ := hends World.playing neverTaken [(Settings.regionName, "r")] none
      (.given ⟨"client", false⟩) nofun hstring
    exact hone run_bareRun

end Refused

end Service

end EventDelivery

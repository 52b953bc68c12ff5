import EventDelivery.Proofs.Confirmed

/-! Runs of the service while the stream service takes every record. What is sent is what the lines hold, in their
order; the one thing that can still go wrong with it is a null key that is no string. -/

namespace EventDelivery
set_option autoImplicit false

/-- A service that is always there and takes every record. -/
structure World.Healthy {σ : Type} (world : World σ) : Prop where
  connects : ∀ connection s, ∃ client, (world (.connect connection) s).1 = .ok client
  confirms : ∀ request s, Attempt.Confirmed ⟨request, (world (.send request) s).1⟩

theorem Payload.told?_ofCodes (codes : List Payload) :
    (ofCodes codes).told? codes.length
      = some (codes.map fun code => .mapping false [(.text (Text.ofString "ErrorCode"), code)]) := by
  have hfield : Writer.responseField (ofCodes codes) "Records" (.sequence .list []) = .ok (.sequence .list
    (codes.map fun code => .mapping false [(.text (Text.ofString "ErrorCode"), code)])) := rfl
  rw [told?, hfield]
  simp only [length?, List.length_map, if_true]
  rfl

def World.taking : World (List Payload)
  | .send request, s => (.ok (Payload.ofCodes (List.replicate request.entries.length .null)), s)
  | c, s => World.playing c s

theorem World.healthy_taking : World.taking.Healthy := by
  constructor
  · intro connection s
    exact ⟨_, rfl⟩
  · intro request s
    have htold := Payload.told?_ofCodes (List.replicate request.entries.length .null)
    rw [List.length_replicate] at htold
    refine ⟨_, _, rfl, htold, ?_⟩
    intro entry hentry
    obtain ⟨code, hcode, rfl⟩ := List.mem_map.mp hentry
    rw [List.eq_of_mem_replicate hcode]
    rfl

section Worlds
variable {α σ : Type} {world : World σ} {p : Interaction α} {s : σ}

theorem World.Healthy.allConfirmed (healthy : world.Healthy) : AllConfirmed (Interaction.history world p s) := by
  intro a ha
  obtain ⟨x, hx, hattempt⟩ := List.mem_filterMap.mp ha
  obtain ⟨c, s', rfl⟩ := Interaction.exists_of_mem_history hx
  cases c with
  | send request =>
    obtain rfl := Option.some.inj hattempt
    exact healthy.confirms request s'
  | _ => cases hattempt

theorem World.Healthy.connected (healthy : world.Healthy) (connection : Connection) (fault : Fault) :
    (⟨.connect connection, .error fault⟩ : Exchange) ∉ Interaction.history world p s := by
  intro hx
  obtain ⟨c, s', hanswer⟩ := Interaction.exists_of_mem_history hx
  obtain ⟨rfl, hfault⟩ := Exchange.mk.inj hanswer
  obtain ⟨client, hclient⟩ := healthy.connects connection s'
  cases (eq_of_heq hfault).trans hclient

end Worlds

namespace Service

section Healthy
variable {σ : Type} {world : World σ} {s : σ} {environment : Environment} {given : Option Settings}
  {settings : Settings} {naming : StreamNaming} {source : ClientSource} {lines : List String}
  {events : List Event}

/-- With logging set up, a run in a healthy world ends well unless an event has no entry. -/
theorem packed_of_healthy (healthy : world.Healthy) (sound : settings.Sound)
    (chosen : Chosen environment given settings)
    (named : StreamNaming.ofName settings.streamNaming = .ok naming) (positive : 0 < settings.batchSize.toNat)
    (read : readEvents lines = ⟨events, none⟩) {logger : RootLogger}
    (logging : RootLogger.configure environment .untouched = .ok logger) :
    Calm (Interaction.history world (run environment given source lines).run s) ∧
    (((Interaction.run world (run environment given source lines).run s).1 = .ok 0 ∧
        Shipped settings.nullKey naming.apply settings.batchSize.toNat positive events
          (requests (Interaction.history world (run environment given source lines).run s))) ∨
      (Interaction.run world (run environment given source lines).run s).1 ≠ .ok 0 ∧
        ∃ event ∈ events, ∀ entry, ¬ event.Gives settings.nullKey entry) := by
  rw [run_of_logged chosen logging]
  have hserves : Serves environment settings source ⟨events, none⟩ _ _ :=
    read ▸ serves_of_deliver sound (Interaction.path_run world (deliver settings source lines).run s)
  obtain ⟨hcalm, ⟨hzero, parts, hparts, hpacked⟩ | hbare⟩ := packed_of_serves positive sound named logging
    healthy.connected hserves healthy.allConfirmed
  · exact ⟨hcalm, .inl ⟨hzero, hparts ▸ shipped_of_packed hpacked⟩⟩
  · exact ⟨hcalm, .inr hbare⟩

end Healthy

/-- A run over lines that are all read, in a healthy world, pauses nowhere. It ends well exactly when logging can
be set up and no event needs a null key that is no string, and has sent all events then. -/
theorem run_of_healthy {σ : Type} (world : World σ) (healthy : world.Healthy) (s : σ)
    {environment : Environment} {given : Option Settings} {settings : Settings} {naming : StreamNaming}
    (chosen : given = some settings ∧ settings.Accepted ∨
      given = none ∧ Settings.load environment [] = .ok settings)
    (named : StreamNaming.ofName settings.streamNaming = .ok naming) (source : ClientSource)
    {lines : List String} {events : List Event} (read : (Feed.written lines).mapM Event.ofLine = .ok events) :
    let result := (Interaction.run world (run environment given source lines).run s).1
    let h := Interaction.history world (run environment given source lines).run s
    (∀ x ∈ h, ∀ duration, x.call ≠ .sleep duration) ∧
    (result = .ok 0 ↔
      (∃ logger, RootLogger.configure environment .untouched = .ok logger) ∧
      ∀ event ∈ events, event.partitionKey settings.nullKey = .ok settings.nullKey →
        settings.nullKey.toString?.isSome) ∧
    (result = .ok 0 → ∃ positive : 0 < settings.batchSize.toNat,
      Shipped settings.nullKey naming.apply settings.batchSize.toNat positive events (requests h)) := by
  intro result h
  obtain ⟨hchosen, hsound⟩ := sound_of_chosen chosen
  have hpositive : 0 < settings.batchSize.toNat := by
    have hsize := hsound.batchSize
    omega
  have hfeed : readEvents lines = ⟨events, none⟩ := Feed.readFrom_of_written read
  have hgives {event : Event} (hevent : event ∈ events) :
      (∃ entry, event.Gives settings.nullKey entry) ↔
        (event.partitionKey settings.nullKey = .ok settings.nullKey → settings.nullKey.toString?.isSome) := by
    apply Event.gives_iff_of_mem_readEvents hsound.nullKey
    rw [hfeed]
    exact hevent
  cases hlogging : RootLogger.configure environment .untouched with
  | error failure =>
    have hresult : result = .error failure := by
      unfold result
      rw [run_of_unlogged hlogging]
      rfl
    have hhistory : h = [] := by
      unfold h
      rw [run_of_unlogged hlogging]
      rfl
    rw [hresult, hhistory]
    refine ⟨List.forall_mem_nil _, ⟨nofun, ?_⟩, nofun⟩
    rintro ⟨⟨logger, hlogger⟩, -⟩
    cases hlogger
  | ok logger =>
    obtain ⟨hcalm, hends⟩ := packed_of_healthy healthy hsound hchosen named hpositive hfeed hlogging
    refine ⟨hcalm, ⟨?_, ?_⟩, ?_⟩
    · intro hzero
      rcases hends with ⟨-, hshipped⟩ | ⟨hends, -⟩
      · refine ⟨⟨logger, rfl⟩, ?_⟩
        intro event hevent
        obtain ⟨entry, -, hentry⟩ := exists_mem_of_forall₂ hshipped.entries.flip hevent
        exact (hgives hevent).mp ⟨entry, hentry⟩
      · exact absurd hzero hends
    · rintro ⟨-, hkeyed⟩
      rcases hends with ⟨hzero, -⟩ | ⟨-, event, hevent, hbare⟩
      · exact hzero
      · obtain ⟨entry, hentry⟩ := (hgives hevent).mpr (hkeyed event hevent)
        exact absurd hentry (hbare entry)
    · intro hzero
      rcases hends with ⟨-, hshipped⟩ | ⟨hends, -⟩
      · exact ⟨hpositive, hshipped⟩
      · exact absurd hzero hends

section Taking

/-- Three windows of events are sent to a service that takes them. -/
theorem bareLines_taken :
    World.taking.Healthy ∧ Settings.load [(Settings.regionName, "r")] [] = .ok (.ofRegion (Text.ofString "r")) ∧
    (Feed.written (List.replicate 1001 bareLine)).mapM Event.ofLine = .ok (List.replicate 1001 bareEvent) ∧
    (Interaction.run World.taking (run [(Settings.regionName, "r")] none (.given ⟨"client", false⟩)
      (List.replicate 1001 bareLine)).run []).1 = .ok 0 ∧
    ∃ positive : 0 < 2048, Shipped Settings.defaultNullKey StreamNaming.identity.apply 2048 positive
      (List.replicate 1001 bareEvent) (requests (Interaction.history World.taking
        (run [(Settings.regionName, "r")] none (.given ⟨"client", false⟩) (List.replicate 1001 bareLine)).run [])) := by
  have hread := mapM_bareLines 1001
  obtain ⟨-, hends, hshipped⟩ := run_of_healthy World.taking World.healthy_taking [] (.inr ⟨rfl, load_cutRun⟩)
    (StreamNaming.ofName_name .identity) (.given ⟨"client", false⟩) hread
  have hzero := hends.mpr ⟨⟨_, rfl⟩, fun _ _ _ => by decide⟩
  exact ⟨World.healthy_taking, load_cutRun, hread, hzero, hshipped hzero⟩

def loneSettings (half : Fin 2048) : Settings :=
  { Settings.ofRegion (Text.ofString "r") with nullKey := [.lone half] }

def loneSink (half : Fin 2048) : Sink :=
  ⟨⟨"client", false⟩, [.lone half], List.cons_ne_nil _ _, StreamNaming.identity.apply, true⟩

theorem accepted_loneSettings (half : Fin 2048) : (loneSettings half).Accepted :=
  ⟨_, _, @Settings.load_nullKey _ _ (.text [.lone half]) _ load_cutRun rfl⟩

/-- A null key that is accepted and is no string keeps an event from being sent. -/
theorem loneSettings_not_taken :
    World.taking.Healthy ∧ (loneSettings 0).Accepted ∧
    (Feed.written [bareLine]).mapM Event.ofLine = .ok [bareEvent] ∧
    (Interaction.run World.taking (run [] (some (loneSettings 0)) (.given ⟨"client", false⟩) [bareLine]).run []).1
      = .error (.invalid [⟨some "partition_key", .notUnicode⟩]) := by
  have hread : (Feed.written [bareLine]).mapM Event.ofLine = .ok [bareEvent] := mapM_bareLines 1
  refine ⟨World.healthy_taking, accepted_loneSettings 0, hread, ?_⟩
  have hlogging : RootLogger.configure [] .untouched = .ok ⟨20, [some RootLogger.format]⟩ := rfl
  have positive : 0 < (loneSettings 0).batchSize.toNat := by decide
  have hgroups : Feed.groups _ positive ⟨[bareEvent], none⟩ = [[bareEvent]] := by
    rw [Feed.groups_of_whole, windows_of_length_le (List.cons_ne_nil _ _) positive]
  have hwindows : windows windowSize windowSize_pos [bareEvent] = [[bareEvent]] :=
    windows_of_length_le (List.cons_ne_nil _ _) (by decide)
  have hlines : deliverLines (loneSink 0) (loneSettings 0).batchSize 1 #[] 0 [bareLine]
      = publishAll (loneSink 0) none 0 [[bareEvent]] := by
    rw [deliverLines_eq_publishAll positive, readEvents_bareLine, hgroups]
  have hbuild : Sink.build (loneSettings 0) ⟨"client", false⟩ = .ok (loneSink 0) := rfl
  have hconverted : toRecords (loneSink 0).nullKey [bareEvent]
      = .error (.invalid [⟨some "partition_key", .notUnicode⟩]) := by
    have hrecord : bareEvent.toRecord [.lone 0] (.int (0 : Nat))
        = .error (.invalid [⟨some "partition_key", .notUnicode⟩]) := by
      have hkey : bareEvent.partitionKey [.lone 0] = .ok [.lone 0] := rfl
      have hdata : bareEvent.data = .ok .empty := rfl
      rw [Event.toRecord_of_ok hkey hdata, Record.ofFields_of_lone (by decide)]
      rfl
    exact bind_eq_error_iff.mpr (.inl hrecord)
  rw [run_eq_deliver (.inl rfl), hlogging, Action.ofExcept_ok_bind, deliver_eq]
  simp only [Sink.obtainClient, bind_assoc, pure_bind, hbuild, Action.ofExcept_ok_bind, hlines]
  rw [publishAll, publishGroup, Sink.publishBatch, Sink.handleBatch_of_isOpen rfl, hwindows, Sink.deliverWindows,
    hconverted]
  rfl

end Taking

end Service

end EventDelivery

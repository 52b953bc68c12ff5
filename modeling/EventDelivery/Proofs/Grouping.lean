import EventDelivery.Proofs.Run

/-! The size of groups. Groups that end where windows end are published like the windows themselves, so runs
with such sizes do the same, and differ only in the sizes that they note. -/

namespace EventDelivery
set_option autoImplicit false

section Windows
variable {α : Type} {small large : Nat} {small_pos : 0 < small} {large_pos : 0 < large}

theorem flatMap_windows (fits : small ∣ large) (items : List α) :
    (windows large large_pos items).flatMap (windows small small_pos) = windows small small_pos items := by
  induction items using windows.induct large large_pos with
  | case1 =>
    rw [windows_nil, windows_nil]
    rfl
  | case2 item items ih =>
    rw [windows_of_ne_nil _ _ (List.cons_ne_nil item items), List.flatMap_cons, ih]
    by_cases hshort : (item :: items).length ≤ large
    · rw [List.take_of_length_le hshort, List.drop_eq_nil_of_le hshort, windows_nil, List.append_nil]
    · have hfull : small ∣ ((item :: items).take large).length := by
        rw [List.length_take_of_le (by omega)]
        exact fits
      rw [← windows_append_of_dvd hfull, List.take_append_drop]

end Windows

/-- The sizes of groups are left out of a notice. -/
def Notice.unsized : Notice → Notice
  | serviceStart region endpoint _ => serviceStart region endpoint 0
  | batchFailed published _ error => batchFailed published 0 error
  | notice => notice

theorem Notice.unsized_of_component {notice : Notice} (h : notice.component ≠ .service) :
    notice.unsized = notice := by
  cases notice <;> first | rfl | exact absurd rfl h

def Exchange.unsized : Exchange → Exchange
  | ⟨.note notice, answer⟩ => ⟨.note notice.unsized, answer⟩
  | x => x

theorem efforts_map_unsized (h : List Exchange) : efforts (h.map Exchange.unsized) = efforts h := by
  induction h with
  | nil => rfl
  | cons x h ih =>
    obtain ⟨c, answer⟩ := x
    cases c with
    | send | sleep => exact congrArg (_ :: ·) ih
    | _ => exact ih

theorem counts_map_unsized (h : List Exchange) : counts (h.map Exchange.unsized) = counts h := by
  induction h with
  | nil => rfl
  | cons x h ih =>
    obtain ⟨c, answer⟩ := x
    cases c with
    | note notice =>
      cases notice with
      | serviceStop published | batchFailed published => exact congrArg (published :: ·) ih
      | _ => exact ih
    | _ => exact ih

namespace Interaction

variable {α β σ : Type}

def unsized : Interaction α → Interaction α
  | .done a => .done a
  | .call c next =>
    match c, next with
    | .note notice, next => .call (.note notice.unsized) fun answer => unsized (next answer)
    | c, next => .call c fun answer => unsized (next answer)

theorem unsized_bind (p : Interaction α) (f : α → Interaction β) :
    unsized (p >>= f) = unsized p >>= fun a => unsized (f a) := by
  induction p with
  | done a => rfl
  | call c next ih => cases c <;> exact congrArg (call _) (funext ih)

theorem unsized_of_calls {p : Interaction α} (h : p.Calls (·.isOfBatch)) : unsized p = p := by
  induction p with
  | done a => rfl
  | call c next ih =>
    have hnext : (fun answer => unsized (next answer)) = next := funext fun answer => ih answer (h.2 answer)
    cases c with
    | note notice =>
      have hnotice : notice.unsized = notice := by
        apply Notice.unsized_of_component
        simpa [Call.isOfBatch] using h.1
      have hrest : unsized (call (.note notice) next) = call (.note notice.unsized) next :=
        congrArg (call (.note notice.unsized)) hnext
      rw [hrest, hnotice]
    | _ => exact congrArg (call _) hnext

/-- A world that is not changed by what is noted does not see the sizes. -/
theorem run_unsized {world : World σ} (deaf : ∀ notice s, (world (.note notice) s).2 = s) (p : Interaction α)
    (s : σ) :
    run world (unsized p) s = run world p s ∧
    history world (unsized p) s = (history world p s).map Exchange.unsized := by
  induction p generalizing s with
  | done a => exact ⟨rfl, rfl⟩
  | call c next ih =>
    obtain ⟨hrun, hhistory⟩ := ih (world c s).1 (world c s).2
    cases c with
    | note notice =>
      rw [deaf] at hrun hhistory
      rw [unsized, run_call, history_call, run_call, history_call, deaf, deaf]
      exact ⟨hrun, congrArg _ hhistory⟩
    | _ => exact ⟨hrun, congrArg _ hhistory⟩

end Interaction

def Action.unsized {α : Type} (action : Action α) : Action α := ExceptT.mk (Interaction.unsized action.run)

theorem Action.unsized_bind {α β : Type} (x : Action α) (f : α → Action β) :
    (x >>= f).unsized = x.unsized >>= fun a => (f a).unsized := by
  apply ExceptT.ext
  simp only [unsized, ExceptT.run_mk, ExceptT.run_bind, Interaction.unsized_bind]
  refine congrArg (_ >>= ·) (funext fun ending => ?_)
  cases ending <;> rfl

theorem Action.run_unsized {α : Type} (x : Action α) : x.unsized.run = Interaction.unsized x.run := rfl

section Collecting
variable {α β : Type}

theorem collecting_bind_of_calls {p : Interaction α} (h : p.Calls (·.isOfBatch)) (f : α → Interaction β)
    (marked : Array Event) (finished : Bool) :
    collecting marked finished (p >>= f) = p >>= fun a => collecting marked finished (f a) := by
  induction p with
  | done a => rfl
  | call c next ih =>
    cases c with
    | mark event => cases h.1
    | finish => cases h.1
    | _ => exact congrArg (Interaction.call _) (funext fun answer => ih answer (h.2 answer))

theorem collecting_markEach (events : List Event) (f : Except Failure Unit → Interaction β)
    (marked : Array Event) (finished : Bool) :
    collecting marked finished ((Sink.markEach events).run >>= f)
      = collecting (marked ++ events) finished (f (.ok ())) := by
  induction events generalizing marked with
  | nil =>
    rw [Array.appendList_nil]
    rfl
  | cons event events ih =>
    rw [Array.appendList_cons]
    exact ih (marked.push event)

end Collecting

namespace Service

/-- A failure that a batch reports is told and ends the service, any other one leaves it. -/
def giveUp (size published : Nat) (failure : Failure) : Action Ending :=
  if failure.isReported then do
    Action.note (.batchFailed published size failure.message)
    return .failed published
  else throw failure

/-- After what was collected of a group, the failure of its batch is told, or the service goes on. -/
def proceed (size published : Nat) (next : Nat → Action Ending) :
    Except Failure Unit × List Event × Bool → Action Ending
  | (.ok (), marked, _) => next (published + marked.length)
  | (.error failure, marked, _) => giveUp size (published + marked.length) failure

/-- Windows are published one after another, after so many events, until one fails. -/
def publishWindows (sink : Sink) (destination : Text) (published : Nat) (next : Nat → Action Ending) :
    List (List Event) → Action Ending
  | [] => next published
  | window :: rest => ExceptT.mk do
    match ← (sink.deliverWindow destination window).run with
    | .ok _ => (publishWindows sink destination (published + window.length) next rest).run
    | .error failure => (giveUp 0 published failure).run

section Groups
variable {sink : Sink} {destination : Text} {published : Nat} {next : Nat → Action Ending}

theorem publishWindows_append (ws vs : List (List Event)) :
    publishWindows sink destination published next (ws ++ vs)
      = publishWindows sink destination published
          (fun n => publishWindows sink destination n next vs) ws := by
  induction ws generalizing published with
  | nil => rfl
  | cons window rest ih => simp only [List.cons_append, publishWindows, ih]

theorem publishGroup_bind (group : List Event) :
    ((do
      let (published, failed) ← publishGroup sink group published
      if failed then return .failed published else next published) : Action Ending)
      = ExceptT.mk (do
          let collected ← collecting #[] false (sink.handleBatch group).run
          (proceed group.length published next collected).run) := by
  apply ExceptT.ext
  simp only [publishGroup, Sink.publishBatch, ExceptT.run_bind, ExceptT.run_mk, bind_assoc]
  refine congrArg (_ >>= ·) (funext fun collected => ?_)
  obtain ⟨ending, marked, finished⟩ := collected
  cases ending with
  | ok ended => rfl
  | error failure =>
    unfold proceed giveUp
    by_cases hreported : failure.isReported <;> simp only [hreported, if_true] <;> rfl

theorem unsized_giveUp (size : Nat) (failure : Failure) :
    (giveUp size published failure).unsized = giveUp 0 published failure := by
  unfold giveUp
  by_cases hreported : failure.isReported <;> simp only [hreported, if_true] <;> rfl

/-- What is collected of windows is published window after window, with the marks that were collected before
them. -/
theorem unsized_collecting (size : Nat) (marked : Array Event) (ws : List (List Event)) :
    Action.unsized (ExceptT.mk (do
        let collected ← collecting marked false (sink.deliverEach destination ws >>= fun _ => Sink.finishing).run
        (proceed size published next collected).run))
      = publishWindows sink destination (published + marked.size) (fun n => (next n).unsized) ws := by
  induction ws generalizing marked with
  | nil =>
    rw [publishWindows, ← Array.length_toList]
    rfl
  | cons window rest ih =>
    have hcalls : (sink.deliverWindow destination window).run.Calls (·.isOfBatch) :=
      (Sink.calls_deliverWindow window).mono fun _ => Call.isOfBatch_of_isOfWindow
    apply ExceptT.ext
    rw [Sink.deliverEach, bind_assoc, ExceptT.run_bind, collecting_bind_of_calls hcalls, publishWindows,
      Action.unsized, ExceptT.run_mk, ExceptT.run_mk, ExceptT.run_mk, bind_assoc, Interaction.unsized_bind,
      Interaction.unsized_of_calls hcalls]
    refine congrArg (_ >>= ·) (funext fun ending => ?_)
    cases ending with
    | error failure =>
      rw [← Array.length_toList]
      exact congrArg ExceptT.run (unsized_giveUp size failure)
    | ok attempts =>
      -- the window's events are collected before the next window is tried
      have hmarked : published + marked.size + window.length = published + (marked ++ window).size := by
        rw [← Array.length_toList, ← Array.length_toList, Array.toList_appendList, List.length_append,
          Nat.add_assoc]
      simp only [bind_assoc, ExceptT.run_bind, collecting_markEach, hmarked, ← ih]
      rfl

theorem unsized_publishGroup_bind {group : List Event} (opened : sink.isOpen = true)
    (same : ∀ event ∈ group, event.destination = destination) :
    Action.unsized (do
        let (published, failed) ← publishGroup sink group published
        if failed then return .failed published else next published)
      = publishWindows sink destination published (fun n => (next n).unsized)
          (windows windowSize windowSize_pos group) := by
  rw [publishGroup_bind, Sink.handleBatch_of_same opened same, unsized_collecting]
  rfl

theorem unsized_publishAll {groups : List (List Event)} (opened : sink.isOpen = true)
    (same : ∀ group ∈ groups, ∀ event ∈ group, event.destination = destination) :
    (publishAll sink none published groups).unsized
      = publishWindows sink destination published (fun n => return .complete n)
          (groups.flatMap (windows windowSize windowSize_pos)) := by
  induction groups generalizing published with
  | nil => rfl
  | cons group rest ih =>
    obtain ⟨hgroup, hrest⟩ := List.forall_mem_cons.mp same
    have hfirst := @unsized_publishGroup_bind sink destination published
      (fun n => publishAll sink none n rest) group opened hgroup
    rw [List.flatMap_cons, publishWindows_append]
    simp only [ih hrest] at hfirst
    exact hfirst

end Groups

theorem unsized_conclude (sink : Sink) (action : Action Ending) :
    (conclude sink action).unsized = conclude sink action.unsized := by
  have hclose : Interaction.unsized sink.close = sink.close := by
    unfold Sink.close closeClient
    split
    · split
      · refine congrArg (Interaction.call .close) (funext fun answer => ?_)
        cases answer <;> rfl
      · rfl
    · rfl
  have hclosing : (sink.closingAfter action).unsized = sink.closingAfter action.unsized := by
    apply ExceptT.ext
    simp only [Action.unsized, Sink.closingAfter, ExceptT.run_mk, Interaction.unsized_bind, hclose]
    rfl
  rw [conclude, Action.unsized_bind, hclosing, conclude]
  refine congrArg (_ >>= ·) (funext fun ending => ?_)
  cases ending <;> rfl

section Sizes
variable {settings : Settings} {source : ClientSource} {lines : List String} {events : List Event}
  {destination : Text}

/-- With groups that end where windows end, the service does what it does with windows alone. -/
theorem unsized_deliver {size : Int} (aligned : 0 < size ∧ (windowSize : Int) ∣ size)
    (read : readEvents lines = ⟨events, none⟩) (same : ∀ event ∈ events, event.destination = destination) :
    (deliver { settings with batchSize := size } source lines).unsized = (do
      Action.note (.serviceStart settings.region settings.endpoint 0)
      let client ← Sink.obtainClient settings source
      let sink ← Action.ofExcept (Sink.build settings client)
      conclude sink (publishWindows sink destination 0 (fun n => return .complete n)
        (windows windowSize windowSize_pos events))) := by
  have hclient : (Sink.obtainClient { settings with batchSize := size } source).unsized
      = Sink.obtainClient settings source := by
    cases source with
    | given client => rfl
    | standard =>
      refine congrArg (Interaction.call _) (funext fun answer => ?_)
      cases answer <;> rfl
  have positive : 0 < size.toNat := by omega
  have hfits : windowSize ∣ size.toNat := by
    rw [← Int.natCast_dvd_natCast, Int.toNat_of_nonneg (Int.le_of_lt aligned.1)]
    exact aligned.2
  rw [deliver_eq]
  simp only [Action.unsized_bind, hclient]
  refine congrArg (_ >>= ·) (funext fun noted => congrArg (_ >>= ·) (funext fun client => ?_))
  have hbuild : Sink.build { settings with batchSize := size } client = Sink.build settings client := rfl
  rw [hbuild]
  cases hsink : Sink.build settings client with
  | error failure => rfl
  | ok sink =>
    have hopen := Sink.isOpen_of_build hsink
    have hgroups : (Feed.mk events none).groups size.toNat positive = windows size.toNat positive events :=
      Feed.groups_of_whole
    have hsame : ∀ group ∈ windows size.toNat positive events, ∀ event ∈ group,
        event.destination = destination := by
      intro group hgroup event hevent
      apply same
      rw [← flatten_windows size.toNat positive events]
      exact List.mem_flatten.mpr ⟨group, hgroup, hevent⟩
    have hlines : (deliverLines sink size 1 #[] 0 lines).unsized
        = publishWindows sink destination 0 (fun n => return .complete n)
            (windows windowSize windowSize_pos events) := by
      rw [deliverLines_eq_publishAll positive, read, hgroups, unsized_publishAll hopen hsame,
        flatMap_windows hfits]
    have hend := unsized_conclude sink (deliverLines sink size 1 #[] 0 lines)
    rw [hlines] at hend
    exact hend

/-- Runs with aligned sizes do the same but for the sizes that they note. -/
theorem unsized_run {first second : Environment} {given given' : Option Settings} {size size' : Int}
    (chosen : Chosen first given { settings with batchSize := size })
    (chosen' : Chosen second given' { settings with batchSize := size' })
    (logging : RootLogger.configure first .untouched = RootLogger.configure second .untouched)
    (aligned : 0 < size ∧ (windowSize : Int) ∣ size) (aligned' : 0 < size' ∧ (windowSize : Int) ∣ size')
    (read : readEvents lines = ⟨events, none⟩) (same : ∀ event ∈ events, event.destination = destination) :
    (run first given source lines).unsized = (run second given' source lines).unsized := by
  rw [run_eq_deliver chosen, run_eq_deliver chosen', logging, Action.unsized_bind, Action.unsized_bind]
  refine congrArg (_ >>= ·) (funext fun logger => ?_)
  rw [unsized_deliver aligned read same, unsized_deliver aligned' read same]

end Sizes

/-- The size of groups that is a multiple of the size of windows only says when the log is told: over lines of
one destination, runs with two such sizes send and wait alike, whatever they are answered, and end alike. -/
theorem run_of_aligned {σ : Type} (world : World σ) (deaf : ∀ notice s, (world (.note notice) s).2 = s) (s : σ)
    {first second : Environment} {given given' : Option Settings} {settings : Settings} {size size' : Int}
    (chosen : Chosen first given { settings with batchSize := size })
    (chosen' : Chosen second given' { settings with batchSize := size' })
    (logging : RootLogger.configure first .untouched = RootLogger.configure second .untouched)
    (aligned : 0 < size ∧ (500 : Int) ∣ size) (aligned' : 0 < size' ∧ (500 : Int) ∣ size')
    (source : ClientSource) {lines : List String} {events : List Event} {destination : Text}
    (read : (Feed.written lines).mapM Event.ofLine = .ok events)
    (same : ∀ event ∈ events, event.destination = destination) :
    let h := Interaction.history world (run first given source lines).run s
    let h' := Interaction.history world (run second given' source lines).run s
    Interaction.run world (run first given source lines).run s
      = Interaction.run world (run second given' source lines).run s ∧
    efforts h = efforts h' ∧
    ∀ code, (Interaction.run world (run first given source lines).run s).1 = .ok code →
      ∃ published, counts h = [published] ∧ counts h' = [published] := by
  intro h h'
  have hfeed : readEvents lines = ⟨events, none⟩ := Feed.readFrom_of_written read
  -- without the sizes that they note the two runs are one, and what is claimed does not look at the sizes
  have hruns : Interaction.unsized (run first given source lines).run
      = Interaction.unsized (run second given' source lines).run := by
    rw [← Action.run_unsized, ← Action.run_unsized, unsized_run chosen chosen' logging aligned aligned' hfeed same]
  obtain ⟨hresult, hhistory⟩ := Interaction.run_unsized deaf (run first given source lines).run s
  obtain ⟨hresult', hhistory'⟩ := Interaction.run_unsized deaf (run second given' source lines).run s
  have hunsized : h.map Exchange.unsized = h'.map Exchange.unsized := by
    rw [← hhistory, ← hhistory', hruns]
  have hcounts : counts h = counts h' := by
    rw [← counts_map_unsized, hunsized, counts_map_unsized]
  refine ⟨?_, ?_, ?_⟩
  · rw [← hresult, ← hresult', hruns]
  · rw [← efforts_map_unsized, hunsized, efforts_map_unsized]
  · intro code hcode
    have hpath := Interaction.path_run world (run first given source lines).run s
    rw [hcode] at hpath
    have positive : 0 < size.toNat := by omega
    obtain ⟨published, hpublished⟩ := counts_of_run chosen positive hpath
    exact ⟨published, hpublished, hcounts ▸ hpublished⟩

def sizedRun (size : Int) : Action Nat :=
  run [] (some { Settings.ofRegion (Text.ofString "r") with batchSize := size }) (.given ⟨"client", false⟩)
    (List.replicate 1001 bareLine)

/-- One window at a time or two of them, the run is given up at the same event. -/
theorem sizedRun_of_aligned :
    (∀ notice s, (World.playing (.note notice) s).2 = s) ∧
    (Feed.written (List.replicate 1001 bareLine)).mapM Event.ofLine = .ok (List.replicate 1001 bareEvent) ∧
    (∀ event ∈ List.replicate 1001 bareEvent, event.destination = Text.ofString "d") ∧
    Interaction.run World.playing (sizedRun 500).run neverTaken
      = Interaction.run World.playing (sizedRun 1000).run neverTaken ∧
    efforts (Interaction.history World.playing (sizedRun 500).run neverTaken)
      = efforts (Interaction.history World.playing (sizedRun 1000).run neverTaken) := by
  have hdeaf : ∀ notice s, (World.playing (.note notice) s).2 = s := fun _ _ => rfl
  have hread := mapM_bareLines 1001
  have hsame : ∀ event ∈ List.replicate 1001 bareEvent, event.destination = Text.ofString "d" := by
    intro event hevent
    rw [List.eq_of_mem_replicate hevent]
    rfl
  obtain ⟨hrun, hefforts, -⟩ := @run_of_aligned _ World.playing hdeaf neverTaken [] [] _ _
    (.ofRegion (Text.ofString "r")) 500 1000 (.inl rfl) (.inl rfl) rfl (by decide) (by decide)
    (.given ⟨"client", false⟩) _ _ _ hread hsame
  exact ⟨hdeaf, hread, hsame, hrun, hefforts⟩

end Service

end EventDelivery

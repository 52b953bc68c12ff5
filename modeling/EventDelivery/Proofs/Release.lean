import EventDelivery.Proofs.Run

/-! The client of a run is released: however the run ends, the client is closed once, after its last request.
Nothing else depends on it, so a client that cannot be closed makes no other difference. -/

namespace EventDelivery
open Interaction (Path)
set_option autoImplicit false

namespace Sink

def withClient (sink : Sink) (client : Client) : Sink := { sink with client := client }

section Clients
variable {sink : Sink} {client : Client}

theorem deliverWindows_withClient (destination : Text) (tracker : Tracker) (ws : List (List Event)) :
    (sink.withClient client).deliverWindows destination tracker ws
      = sink.deliverWindows destination tracker ws := by
  induction ws generalizing tracker with
  | nil => rfl
  | cons window rest ih =>
    simp only [deliverWindows, ih]
    rfl

theorem handleBatch_withClient (events : List Event) :
    (sink.withClient client).handleBatch events = sink.handleBatch events := by
  cases events with
  | nil => rfl
  | cons first rest =>
    simp only [handleBatch, deliverWindows_withClient]
    rfl

theorem publishBatch_withClient (events : List Event) :
    (sink.withClient client).publishBatch events = sink.publishBatch events := by
  rw [publishBatch, publishBatch, handleBatch_withClient]

theorem path_close (opened : sink.isOpen = true) {t : List Exchange} {closed : Sink}
    (h : Path sink.close t closed) :
    (sink.client.closable = true ∧ ∃ (answer : Except Fault Unit) (rest : List Exchange),
      t = ⟨.close, answer⟩ :: rest ∧ ∀ x ∈ rest, x.call.isOutward ∧ x.call.isEffort = false) ∨
    sink.client.closable = false ∧ t = [] := by
  rw [close, if_pos opened] at h
  obtain ⟨ended, t₁, t₂, hclient, hdone, rfl⟩ := Interaction.path_bind_iff.mp h
  obtain ⟨rfl, -⟩ := Interaction.path_done_iff.mp hdone
  rw [List.append_nil]
  unfold closeClient at hclient
  cases hclosable : sink.client.closable with
  | false =>
    rw [hclosable] at hclient
    exact .inr ⟨rfl, (Interaction.path_done_iff.mp hclient).1⟩
  | true =>
    rw [hclosable, if_pos rfl] at hclient
    obtain ⟨answer, rest, rfl, hrest⟩ := Interaction.path_call_iff.mp hclient
    refine .inl ⟨rfl, answer, rest, rfl, ?_⟩
    cases answer with
    | ok ended =>
      obtain ⟨rfl, -⟩ := Interaction.path_done_iff.mp hrest
      exact List.forall_mem_nil _
    | error fault =>
      obtain ⟨told, more, rfl, hmore⟩ := Interaction.path_call_iff.mp hrest
      obtain ⟨rfl, -⟩ := Interaction.path_done_iff.mp hmore
      exact List.forall_mem_singleton.mpr ⟨rfl, rfl⟩

theorem run_obtainClient_standard {settings : Settings} :
    (obtainClient settings .standard).run
      = .call (.connect ⟨settings.region, settings.endpoint, settings.profile⟩) fun
        | .ok client => .call (.note (.clientCreated (.standard settings.region settings.endpoint)))
            fun _ => .done (.ok client)
        | .error fault => .done (.error (.outside fault)) := by
  refine congrArg (Interaction.call _) (funext fun answer => ?_)
  cases answer <;> rfl

theorem path_obtainClient {settings : Settings} {source : ClientSource} {t : List Exchange}
    {r : Except Failure Client} (h : Path (obtainClient settings source).run t r) :
    (∃ client, r = .ok client ∧ source = .given client ∧
      t = [⟨.note (.clientCreated (.custom client.label)), ()⟩]) ∨
    (∃ client connection notice, r = .ok client ∧ source = .standard ∧
      t = [⟨.connect connection, .ok client⟩, ⟨.note notice, ()⟩]) ∨
    ∃ connection fault, r = .error (.outside fault) ∧ source = .standard ∧
      t = [⟨.connect connection, .error fault⟩] := by
  cases source with
  | given client =>
    obtain ⟨u, rfl, hpure⟩ := Action.path_note_bind_iff.mp h
    obtain ⟨rfl, rfl⟩ := Action.path_pure_iff.mp hpure
    exact .inl ⟨client, rfl, rfl, rfl⟩
  | standard =>
    right
    rcases Action.path_bind_iff.mp h with ⟨failure, hcall, rfl⟩ | ⟨client, t₁, t₂, hcall, hrest, rfl⟩
    · obtain ⟨answer, rfl, hanswer⟩ := Action.path_ofCall_iff.mp hcall
      cases answer with
      | ok client => cases hanswer
      | error fault =>
        obtain rfl := Except.error.inj hanswer
        exact .inr ⟨_, fault, rfl, rfl, rfl⟩
    · obtain ⟨answer, rfl, hanswer⟩ := Action.path_ofCall_iff.mp hcall
      obtain ⟨u, rfl, hpure⟩ := Action.path_note_bind_iff.mp hrest
      obtain ⟨rfl, rfl⟩ := Action.path_pure_iff.mp hpure
      cases answer with
      | error fault => cases hanswer
      | ok client =>
        obtain rfl := Except.ok.inj hanswer
        exact .inl ⟨_, _, _, rfl, rfl, rfl⟩

end Clients

end Sink

namespace Service

section Lines
variable {sink : Sink} {client : Client} {size : Int} {number published : Nat} {group : Array Event}
  {lines : List String}

theorem publishGroup_withClient (group : List Event) :
    publishGroup (sink.withClient client) group published = publishGroup sink group published := by
  rw [publishGroup, publishGroup, Sink.publishBatch_withClient]

theorem deliverLines_withClient :
    deliverLines (sink.withClient client) size number group published lines
      = deliverLines sink size number group published lines := by
  induction lines generalizing number group published with
  | nil => simp only [deliverLines, publishGroup_withClient]
  | cons line lines ih => simp only [deliverLines, publishGroup_withClient, ih]

theorem calls_publishGroup (group : List Event) :
    (publishGroup sink group published).run.Calls (·.isOutward) := by
  apply Action.calls_bind
  · exact (Sink.calls_publishBatch group).mono fun _ => Call.isOutward_of_isOfBatch
  · intro report
    cases report.failure with
    | none => trivial
    | some failure => exact ⟨rfl, fun _ => trivial⟩

theorem calls_deliverLines :
    (deliverLines sink size number group published lines).run.Calls (·.isOutward) := by
  induction lines generalizing number group published with
  | nil =>
    unfold deliverLines
    split
    · trivial
    · apply Action.calls_bind (calls_publishGroup _)
      intro told
      trivial
  | cons line lines ih =>
    cases hread : readLine line with
    | error issues =>
      simp only [deliverLines, hread]
      trivial
    | ok told =>
      cases told with
      | none =>
        simp only [deliverLines, hread]
        exact ih
      | some event =>
        simp only [deliverLines, hread]
        by_cases hfull : size ≤ (group.push event).size
        · rw [if_pos hfull]
          apply Action.calls_bind (calls_publishGroup _)
          intro told
          obtain ⟨published, failed⟩ := told
          cases failed with
          | true => trivial
          | false => exact ih
        · rw [if_neg hfull]
          exact ih

end Lines

end Service

def Exchange.made? : Exchange → Option Client
  | ⟨.connect _, .ok client⟩ => some client
  | _ => none

def clients (h : List Exchange) : List Client := h.filterMap Exchange.made?

theorem clients_append {h k : List Exchange} : clients (h ++ k) = clients h ++ clients k := List.filterMap_append

theorem clients_of_isOutward {h : List Exchange} (outward : ∀ x ∈ h, x.call.isOutward) : clients h = [] := by
  apply List.filterMap_eq_nil_iff.mpr
  intro x hx
  have hcall := outward x hx
  obtain ⟨c, answer⟩ := x
  cases c <;> first | rfl | cases hcall

/-- The client that a run had: the one it was given, once that is told, or the one that was made for it. -/
inductive Obtained (source : ClientSource) (h : List Exchange) (client : Client) : Prop where
  | given (source_eq : source = .given client)
      (told : ⟨.note (.clientCreated (.custom client.label)), ()⟩ ∈ h)
  | made (source_eq : source = .standard) (made : client ∈ clients h)

/-- A client is closed once, after the last request; or never, if there is nothing to close. -/
def Released (client : Client) (h : List Exchange) : Prop :=
  if client.closable then
    ∃ (before : List Exchange) (answer : Except Fault Unit) (after : List Exchange),
      h = before ++ ⟨.close, answer⟩ :: after ∧ (∀ x ∈ before ++ after, x.call ≠ .close) ∧
        ∀ x ∈ after, ∀ request, x.call ≠ .send request
  else ∀ x ∈ h, x.call ≠ .close

theorem Call.ne_close_of_isOutward {c : Call} (h : c.isOutward) : c ≠ .close := by
  rintro rfl
  cases h

theorem released_of_closable {client : Client} {before after : List Exchange} {answer : Except Fault Unit}
    (closable : client.closable = true) (hbefore : ∀ x ∈ before, x.call ≠ .close)
    (hafter : ∀ x ∈ after, x.call.isOutward ∧ x.call.isEffort = false) :
    Released client (before ++ ⟨.close, answer⟩ :: after) := by
  rw [Released, if_pos closable]
  refine ⟨before, answer, after, rfl, ?_, ?_⟩
  · exact List.forall_mem_append.mpr ⟨hbefore, fun x hx => Call.ne_close_of_isOutward (hafter x hx).1⟩
  · intro x hx request hsend
    have hcall := (hafter x hx).2
    rw [hsend] at hcall
    cases hcall

namespace Service

section Paths
variable {settings : Settings} {source : ClientSource} {lines : List String} {client : Client}
  {t : List Exchange} {r : Except Failure Nat}

theorem outward_of_stopping {ending : Except Failure Ending} : ∀ x ∈ stopping ending, x.call.isOutward := by
  intro x hx
  unfold stopping at hx
  split at hx
  · rw [List.mem_singleton.mp hx]
    rfl
  · cases hx

/-- The client that a delivery had is the one that it closes after everything else. -/
theorem released_of_deliver (sound : settings.Sound) (h : Path (deliver settings source lines).run t r)
    (obtained : Obtained source t client) : Released client t := by
  rw [deliver_eq] at h
  obtain ⟨u, rfl, hu⟩ := Action.path_note_bind_iff.mp h
  obtain ⟨naming, hbuild⟩ := Sink.build_of_sound sound
  rcases Action.path_bind_iff.mp hu with ⟨failure, hclient, rfl⟩ | ⟨had, opening, t₂, hclient, hrest, rfl⟩
  · rcases Sink.path_obtainClient hclient with ⟨had, hhad, -⟩ | ⟨had, _, _, hhad, -⟩ |
      ⟨connection, fault, -, hsource, rfl⟩
    · cases hhad
    · cases hhad
    · -- without a connection there is no client
      cases obtained with
      | given source_eq told => cases hsource.symm.trans source_eq
      | made source_eq made => cases made
  rcases Action.path_bind_iff.mp hrest with ⟨failure, hsink, -⟩ | ⟨sink, t₃, t₄, hsink, hconclude, rfl⟩
  · obtain ⟨-, hfailure⟩ := Action.path_ofExcept_iff.mp hsink
    cases hfailure.trans (hbuild had)
  obtain ⟨rfl, hok⟩ := Action.path_ofExcept_iff.mp hsink
  obtain rfl := Except.ok.inj (hok.trans (hbuild had))
  obtain ⟨delivery, closing, closed, ending, hdelivery, hclose, rfl, -⟩ := path_conclusion hconclude
  have houtward := calls_deliverLines.of_path hdelivery
  have hstopping : ∀ x ∈ stopping ending, x.call.isOutward ∧ x.call.isEffort = false := fun x hx =>
    ⟨outward_of_stopping x hx, effortless_of_stopping x hx⟩
  have hclosing : clients closing = [] := by
    rcases Sink.path_close rfl hclose with ⟨-, answer, rest, rfl, hmore⟩ | ⟨-, rfl⟩
    · have hnone : clients rest = [] := clients_of_isOutward fun x hx => (hmore x hx).1
      exact hnone
    · rfl
  have hlater : clients (delivery ++ closing ++ stopping ending) = [] := by
    rw [clients_append, clients_append, clients_of_isOutward houtward, hclosing,
      clients_of_isOutward outward_of_stopping]
    rfl
  obtain ⟨rfl, hopening⟩ : client = had ∧ ∀ x ∈ opening, x.call ≠ .close := by
    rcases Sink.path_obtainClient hclient with ⟨own, hown, hsource, rfl⟩ |
      ⟨own, connection, notice, hown, hsource, rfl⟩ | ⟨connection, fault, hfault, -⟩
    · obtain rfl := Except.ok.inj hown
      refine ⟨?_, List.forall_mem_singleton.mpr nofun⟩
      cases obtained with
      | given source_eq told => exact ClientSource.given.inj (source_eq.symm.trans hsource)
      | made source_eq made => cases hsource.symm.trans source_eq
    · obtain rfl := Except.ok.inj hown
      refine ⟨?_, List.forall_mem_cons.mpr ⟨nofun, List.forall_mem_singleton.mpr nofun⟩⟩
      cases obtained with
      | given source_eq told => cases hsource.symm.trans source_eq
      | made source_eq made =>
        have hmade : client ∈ had :: clients (delivery ++ closing ++ stopping ending) := made
        rw [hlater] at hmade
        exact List.mem_singleton.mp hmade
    · cases hfault
  have hbefore (x : Exchange) (hx : x ∈ ⟨.note (.serviceStart settings.region settings.endpoint
      settings.batchSize), ()⟩ :: (opening ++ delivery)) : x.call ≠ .close := by
    rcases List.mem_cons.mp hx with rfl | hx
    · exact nofun
    rcases List.mem_append.mp hx with hx | hx
    · exact hopening x hx
    · exact Call.ne_close_of_isOutward (houtward x hx)
  rcases Sink.path_close rfl hclose with ⟨hclosable, answer, rest, rfl, hmore⟩ | ⟨hclosable, rfl⟩
  · have hafter : ∀ x ∈ rest ++ stopping ending, x.call.isOutward ∧ x.call.isEffort = false :=
      List.forall_mem_append.mpr ⟨hmore, hstopping⟩
    have hreleased := @released_of_closable client _ _ answer hclosable hbefore hafter
    simpa only [List.cons_append, List.append_assoc, List.nil_append] using hreleased
  · have hnot : client.closable = false := hclosable
    rw [Released, hnot, if_neg Bool.false_ne_true]
    intro x hx
    rw [List.append_nil, List.nil_append, ← List.append_assoc, ← List.cons_append] at hx
    rcases List.mem_append.mp hx with hx | hx
    · exact hbefore x hx
    · exact Call.ne_close_of_isOutward (hstopping x hx).1

end Paths

end Service

/-- Worlds that differ in how clients are closed, at most: in whether there is something to close, and in what
that answers and does. -/
structure World.AlikeButClosing {σ : Type} (world other : World σ) : Prop where
  connects : ∀ connection s, (world (.connect connection) s).2 = (other (.connect connection) s).2 ∧
    Except.map Client.label (world (.connect connection) s).1
      = Except.map Client.label (other (.connect connection) s).1
  answers : ∀ c s, c ≠ .close → (∀ connection, c ≠ .connect connection) → world c s = other c s

/-- Sources of clients that differ in whether there is something to close, at most. -/
inductive ClientSource.AlikeButClosing : ClientSource → ClientSource → Prop where
  | given {client other : Client} (label : client.label = other.label) :
      AlikeButClosing (.given client) (.given other)
  | standard : AlikeButClosing .standard .standard

/-- Two actions end alike in their worlds: with one result, after the same requests and pauses, and telling the
same numbers of published events. -/
structure EndsAlike {σ α : Type} (world other : World σ) (p q : Action α) (s s' : σ) : Prop where
  result : (Interaction.run world p.run s).1 = (Interaction.run other q.run s').1
  efforts_eq : efforts (Interaction.history world p.run s) = efforts (Interaction.history other q.run s')
  counts_eq : counts (Interaction.history world p.run s) = counts (Interaction.history other q.run s')

def World.stubborn : World (List Payload)
  | .close, s => (.error ⟨.runtime, Text.ofString "stuck"⟩, s)
  | c, s => World.playing c s

theorem World.alike_stubborn : World.stubborn.AlikeButClosing World.playing := by
  constructor
  · intro connection s
    exact ⟨rfl, rfl⟩
  · intro c s hclose hconnect
    cases c with
    | close => exact absurd rfl hclose
    | _ => rfl

section Worlds
variable {σ α β : Type} {world other : World σ} {s s' : σ}

/-- What comes before may differ aside, as long as the rest ends alike. -/
theorem EndsAlike.of_bind {x y : Action α} {f g : α → Action β} (hx : x.run.Calls (·.isAside))
    (hy : y.run.Calls (·.isAside))
    (h : (∃ failure, (Interaction.run world x.run s).1 = .error failure ∧
        (Interaction.run other y.run s').1 = .error failure) ∨
      ∃ a b, (Interaction.run world x.run s).1 = .ok a ∧ (Interaction.run other y.run s').1 = .ok b ∧
        EndsAlike world other (f a) (g b) (Interaction.run world x.run s).2
          (Interaction.run other y.run s').2) :
    EndsAlike world other (x >>= f) (y >>= g) s s' := by
  have hasideX := hx.of_path (Interaction.path_run world x.run s)
  have hasideY := hy.of_path (Interaction.path_run other y.run s')
  rcases h with ⟨failure, hfailed, hfailed'⟩ | ⟨a, b, ha, hb, hrest⟩
  · obtain ⟨hrun, hhistory⟩ := Action.run_bind_of_error (f := f) hfailed
    obtain ⟨hrun', hhistory'⟩ := Action.run_bind_of_error (f := g) hfailed'
    constructor
    · rw [hrun, hrun']
    · rw [hhistory, hhistory', efforts_of_isAside hasideX, efforts_of_isAside hasideY]
    · rw [hhistory, hhistory', counts_of_isAside hasideX, counts_of_isAside hasideY]
  · obtain ⟨hrun, hhistory⟩ := Action.run_bind_of_ok (f := f) ha
    obtain ⟨hrun', hhistory'⟩ := Action.run_bind_of_ok (f := g) hb
    constructor
    · rw [hrun, hrun']
      exact hrest.result
    · rw [hhistory, hhistory', efforts_append, efforts_append, efforts_of_isAside hasideX,
        efforts_of_isAside hasideY, hrest.efforts_eq]
    · rw [hhistory, hhistory', counts_append, counts_append, counts_of_isAside hasideX,
        counts_of_isAside hasideY, hrest.counts_eq]

theorem World.AlikeButClosing.outward (alike : world.AlikeButClosing other) (c : Call) (s : σ)
    (h : c.isOutward) : world c s = other c s := by
  apply alike.answers c s
  · exact Call.ne_close_of_isOutward h
  · rintro connection rfl
    cases h

theorem World.AlikeButClosing.obtainClient (alike : world.AlikeButClosing other) (settings : Settings)
    {source source' : ClientSource} (sources : source.AlikeButClosing source') (s : σ) :
    (Interaction.run world (Sink.obtainClient settings source).run s).2
      = (Interaction.run other (Sink.obtainClient settings source').run s).2 ∧
    ((∃ failure, (Interaction.run world (Sink.obtainClient settings source).run s).1 = .error failure ∧
        (Interaction.run other (Sink.obtainClient settings source').run s).1 = .error failure) ∨
      ∃ client client', (Interaction.run world (Sink.obtainClient settings source).run s).1 = .ok client ∧
        (Interaction.run other (Sink.obtainClient settings source').run s).1 = .ok client') := by
  cases sources with
  | @given client client' label =>
    have hnote := alike.outward (.note (.clientCreated (.custom client.label))) s rfl
    have hstate : (world (.note (.clientCreated (.custom client.label))) s).2
        = (other (.note (.clientCreated (.custom client'.label))) s).2 := by rw [hnote, label]
    exact ⟨hstate, .inr ⟨client, client', rfl, rfl⟩⟩
  | standard =>
    obtain ⟨hstate, hanswer⟩ := alike.connects ⟨settings.region, settings.endpoint, settings.profile⟩ s
    rw [Sink.run_obtainClient_standard, Interaction.run_call, Interaction.run_call, ← hstate]
    generalize (world (.connect ⟨settings.region, settings.endpoint, settings.profile⟩) s).1 = answer at hanswer ⊢
    generalize (other (.connect ⟨settings.region, settings.endpoint, settings.profile⟩) s).1 = answer' at hanswer ⊢
    cases answer with
    | error fault =>
      cases answer' with
      | error fault' =>
        obtain rfl := Except.error.inj hanswer
        exact ⟨rfl, .inl ⟨_, rfl, rfl⟩⟩
      | ok client' => cases hanswer
    | ok client =>
      cases answer' with
      | error fault' => cases hanswer
      | ok client' =>
        have hnote := alike.outward (.note (.clientCreated (.standard settings.region settings.endpoint)))
          (world (.connect ⟨settings.region, settings.endpoint, settings.profile⟩) s).2 rfl
        refine ⟨?_, .inr ⟨client, client', rfl, rfl⟩⟩
        exact congrArg (fun told : Unit × σ => told.2) hnote

end Worlds

namespace Service

section Worlds
variable {σ : Type} {world other : World σ} {settings : Settings} {source source' : ClientSource}
  {lines : List String}

/-- What is done before the sink is closed is the same, and nothing that matters comes after it. -/
theorem conclude_alike (alike : world.AlikeButClosing other) (sink : Sink) (client : Client)
    {action : Action Ending} (outward : action.run.Calls (·.isOutward)) (s : σ) :
    EndsAlike world other (conclude sink action) (conclude (sink.withClient client) action) s s := by
  obtain ⟨hrun, hhistory⟩ := outward.run_congr alike.outward s
  obtain ⟨hresult, hwhole⟩ := @run_conclude σ world s sink action
  obtain ⟨hresult', hwhole'⟩ := @run_conclude σ other s (sink.withClient client) action
  have hclose (w : World σ) (closing : Sink) (s : σ) :
      ∀ x ∈ Interaction.history w closing.close s, x.call.isAside :=
    Sink.calls_close.of_path (Interaction.path_run w closing.close s)
  constructor
  · rw [hresult, hresult', hrun]
  · rw [hwhole, hwhole', efforts_append, efforts_append, efforts_append, efforts_append,
      efforts_of_isAside (hclose _ _ _), efforts_of_isAside (hclose _ _ _), hrun, hhistory]
  · rw [hwhole, hwhole', counts_append, counts_append, counts_append, counts_append,
      counts_of_isAside (hclose _ _ _), counts_of_isAside (hclose _ _ _), hrun, hhistory]

theorem deliver_alike (alike : world.AlikeButClosing other) (sources : source.AlikeButClosing source')
    (sound : settings.Sound) (s : σ) :
    EndsAlike world other (deliver settings source lines) (deliver settings source' lines) s s := by
  obtain ⟨naming, hbuild⟩ := Sink.build_of_sound sound
  rw [deliver_eq, deliver_eq]
  have hstart := alike.outward (.note (.serviceStart settings.region settings.endpoint settings.batchSize)) s rfl
  refine EndsAlike.of_bind (Action.calls_note rfl) (Action.calls_note rfl) (.inr ⟨(), (), rfl, rfl, ?_⟩)
  have hstate : (Interaction.run other (Action.note (.serviceStart settings.region settings.endpoint
      settings.batchSize)).run s).2 = (Interaction.run world (Action.note (.serviceStart settings.region
      settings.endpoint settings.batchSize)).run s).2 := congrArg (fun told : Unit × σ => told.2) hstart.symm
  rw [hstate]
  -- only the state that the first notice left matters from here on
  generalize (Interaction.run world (Action.note (.serviceStart settings.region settings.endpoint
    settings.batchSize)).run s).2 = s
  obtain ⟨hstate, hclients⟩ := alike.obtainClient settings sources s
  apply EndsAlike.of_bind Sink.calls_obtainClient Sink.calls_obtainClient
  rcases hclients with hfailed | ⟨client, client', hclient, hclient'⟩
  · exact .inl hfailed
  · refine .inr ⟨client, client', hclient, hclient', ?_⟩
    rw [hbuild, hbuild, Action.ofExcept_ok_bind, Action.ofExcept_ok_bind, ← hstate]
    have hlines : deliverLines ⟨client', settings.nullKey, sound.nullKey, naming.apply, true⟩ settings.batchSize 1
          #[] 0 lines
        = deliverLines ⟨client, settings.nullKey, sound.nullKey, naming.apply, true⟩ settings.batchSize 1 #[] 0 lines :=
      @deliverLines_withClient ⟨client, settings.nullKey, sound.nullKey, naming.apply, true⟩ client' _ _ _ _ _
    rw [hlines]
    exact conclude_alike alike ⟨client, settings.nullKey, sound.nullKey, naming.apply, true⟩ client'
      calls_deliverLines _

end Worlds

/-- The client that a run had is closed once, after its last request, however the run ends. A client that fails to
close, or cannot be closed, makes no difference to how the run ends, to its requests and pauses, or to the number
of published events that it tells. -/
theorem run_releases {σ : Type} (world : World σ) (s : σ) {environment : Environment} {given : Option Settings}
    {settings : Settings} (chosen : given = some settings ∧ settings.Accepted ∨
      given = none ∧ Settings.load environment [] = .ok settings)
    (source : ClientSource) (lines : List String) :
    let h := Interaction.history world (run environment given source lines).run s
    (∀ client, Obtained source h client → Released client h) ∧
    ∀ (other : World σ) (source' : ClientSource), world.AlikeButClosing other → source.AlikeButClosing source' →
      let h' := Interaction.history other (run environment given source' lines).run s
      (Interaction.run world (run environment given source lines).run s).1
        = (Interaction.run other (run environment given source' lines).run s).1 ∧
      efforts h = efforts h' ∧ counts h = counts h' := by
  obtain ⟨hchosen, hsound⟩ := sound_of_chosen chosen
  cases hlogging : RootLogger.configure environment .untouched with
  | error failure =>
    simp only [run_of_unlogged hlogging]
    constructor
    · intro client obtained
      cases obtained with
      | given source_eq told => cases told
      | made source_eq made => cases made
    · intro other source' alike sources
      exact ⟨rfl, rfl, rfl⟩
  | ok logger =>
    simp only [run_of_logged hchosen hlogging]
    constructor
    · intro client obtained
      exact released_of_deliver hsound (Interaction.path_run world _ s) obtained
    · intro other source' alike sources
      obtain ⟨hresult, hefforts, hcounts⟩ := deliver_alike alike sources hsound s
      exact ⟨hresult, hefforts, hcounts⟩

def clientRun (client : Client) : Action Nat := run [(Settings.regionName, "r")] none (.given client) [bareLine]

theorem told_clientRun {σ : Type} (world : World σ) (s : σ) (client : Client) :
    ⟨.note (.clientCreated (.custom client.label)), ()⟩ ∈ Interaction.history world (clientRun client).run s := by
  have hlogging : RootLogger.configure [(Settings.regionName, "r")] .untouched
      = .ok ⟨20, [some RootLogger.format]⟩ := rfl
  rw [clientRun, run_of_logged (.inr ⟨rfl, load_cutRun⟩) hlogging, deliver_eq]
  exact List.mem_cons_of_mem _ List.mem_cons_self

/-- A client that fails to close was closed, and a client that cannot be closed is as good. -/
theorem stubborn_client_released :
    Settings.load [(Settings.regionName, "r")] [] = .ok (.ofRegion (Text.ofString "r")) ∧
    World.stubborn.AlikeButClosing World.playing ∧
    Released ⟨"client", true⟩ (Interaction.history World.stubborn (clientRun ⟨"client", true⟩).run neverTaken) ∧
    (Interaction.run World.stubborn (clientRun ⟨"client", true⟩).run neverTaken).1
      = (Interaction.run World.playing (clientRun ⟨"client", false⟩).run neverTaken).1 ∧
    efforts (Interaction.history World.stubborn (clientRun ⟨"client", true⟩).run neverTaken)
      = efforts (Interaction.history World.playing (clientRun ⟨"client", false⟩).run neverTaken) := by
  obtain ⟨hreleased, hother⟩ := run_releases World.stubborn neverTaken (.inr ⟨rfl, load_cutRun⟩)
    (.given ⟨"client", true⟩) [bareLine]
  obtain ⟨hresult, hefforts, -⟩ := hother World.playing (.given ⟨"client", false⟩) World.alike_stubborn (.given rfl)
  have htold := told_clientRun World.stubborn neverTaken ⟨"client", true⟩
  exact ⟨load_cutRun, World.alike_stubborn, hreleased _ (.given rfl htold), hresult, hefforts⟩

end Service

end EventDelivery

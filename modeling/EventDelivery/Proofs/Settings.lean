import EventDelivery.Sink
import EventDelivery.Proofs.Except
import EventDelivery.Proofs.Path

/-! Settings that were accepted. Each comes from its payload or is its default, and what is asked of it
holds of both; so a sink is made of such settings whenever there is a client for it. -/

namespace EventDelivery
open Interaction (Path)
set_option autoImplicit false

namespace Settings

variable {environment : Environment} {arguments : Field.Given} {settings : Settings}

/-- Where the settings that were loaded come from. -/
structure Loaded (environment : Environment) (arguments : Field.Given) (settings : Settings) : Prop where
  region : ∃ payload, given? environment arguments regionName = some payload ∧
    readRegion payload = .ok settings.region
  endpoint : optional environment arguments endpointName none readEndpoint = .ok settings.endpoint
  profile : optional environment arguments profileName none readProfile = .ok settings.profile
  nullKey : optional environment arguments nullKeyName defaultNullKey readNullKey = .ok settings.nullKey
  streamNaming : optional environment arguments streamNamingName (Text.ofString "identity") readStreamNaming
    = .ok settings.streamNaming
  batchSize : optional environment arguments batchSizeName 2048 readBatchSize = .ok settings.batchSize
  known : unknown arguments = []

theorem load_eq_ok_iff :
    load environment arguments = .ok settings ↔ Loaded environment arguments settings := by
  constructor
  · intro h
    simp only [load] at h
    split at h
    · rename_i region endpoint profile nullKey naming size hregion hendpoint hprofile hnullKey hnaming hsize
        hunknown
      obtain rfl := Except.ok.inj h
      refine ⟨?_, hendpoint, hprofile, hnullKey, hnaming, hsize, hunknown⟩
      split at hregion
      · rename_i payload hgiven
        exact ⟨payload, hgiven, hregion⟩
      · cases hregion
    · cases h
  · intro loaded
    obtain ⟨payload, hgiven, hregion⟩ := loaded.region
    simp only [load, hgiven, hregion, loaded.endpoint, loaded.profile, loaded.nullKey,
      loaded.streamNaming, loaded.batchSize, loaded.known]

theorem optional_of_absent {α : Type} {name : String} (h : given? environment arguments name = none)
    (default : α) (read : Payload → Except IssueCause α) :
    optional environment arguments name default read = .ok default := by
  rw [optional, h]

theorem optional_congr {α : Type} {environment' : Environment} {arguments' : Field.Given} {name : String}
    (h : given? environment' arguments' name = given? environment arguments name)
    (default : α) (read : Payload → Except IssueCause α) :
    optional environment' arguments' name default read = optional environment arguments name default read := by
  rw [optional, optional, h]

/-- What holds of a default and of all that is read holds of the setting. -/
theorem of_optional {α : Type} (P : α → Prop) {name : String} {default a : α}
    {read : Payload → Except IssueCause α} (h : optional environment arguments name default read = .ok a)
    (hdefault : P default) (hread : ∀ payload b, read payload = .ok b → P b) : P a := by
  unfold optional at h
  split at h
  · exact hread _ a h
  · exact Except.ok.inj h ▸ hdefault

/-- What the service asks of its settings. -/
structure Sound (settings : Settings) : Prop where
  nullKey : settings.nullKey ≠ []
  streamNaming : ∃ naming : StreamNaming, settings.streamNaming = Text.ofString naming.name
  batchSize : 1 ≤ settings.batchSize

theorem ne_nil_of_readNullKey {payload : Payload} {key : Text} (h : readNullKey payload = .ok key) :
    key ≠ [] := by
  obtain ⟨read, -, h⟩ := bind_eq_ok_iff.mp h
  split at h
  · cases h
  · split at h
    · cases h
    · obtain rfl := Except.ok.inj h
      simp_all

theorem naming_of_readStreamNaming {payload : Payload} {mode : Text}
    (h : readStreamNaming payload = .ok mode) :
    ∃ naming : StreamNaming, mode = Text.ofString naming.name := by
  unfold readStreamNaming at h
  split at h
  · split at h
    · cases h
    · split at h
      · rename_i hmode
        obtain rfl := Except.ok.inj h
        rcases hmode with hmode | hmode
        · exact ⟨.identity, hmode⟩
        · exact ⟨.sanitized, hmode⟩
      · cases h
  · cases h

theorem one_le_of_readBatchSize {payload : Payload} {size : Int} (h : readBatchSize payload = .ok size) :
    1 ≤ size := by
  obtain ⟨read, -, h⟩ := bind_eq_ok_iff.mp h
  split at h
  · cases h
  · obtain rfl := Except.ok.inj h
    omega

theorem sound_of_load (h : load environment arguments = .ok settings) : settings.Sound := by
  have loaded := load_eq_ok_iff.mp h
  constructor
  · exact of_optional (· ≠ []) loaded.nullKey (by decide) fun _ _ => ne_nil_of_readNullKey
  · exact of_optional (∃ naming : StreamNaming, · = Text.ofString naming.name) loaded.streamNaming
      ⟨.identity, rfl⟩ fun _ _ => naming_of_readStreamNaming
  · exact of_optional (1 ≤ ·) loaded.batchSize (by decide) fun _ _ => one_le_of_readBatchSize

def ofRegion (region : Text) : Settings :=
  ⟨region, none, none, defaultNullKey, Text.ofString "identity", 2048⟩

theorem foldedName_eq_iff {s t : String} :
    foldedName s = foldedName t ↔ s.toList.map lowerAscii = t.toList.map lowerAscii := by
  rw [← String.toList_inj, foldedName, foldedName, String.toList_map, String.toList_map]

theorem given?_singleton {name value name' : String} :
    given? [(name, value)] [] name'
      = if foldedName name = foldedName name' then some (.text (Text.ofString value)) else none := by
  by_cases h : foldedName name = foldedName name' <;>
    simp [given?, argument?, Environment.folded?, h]

theorem load_region {value : String} {region : Text}
    (h : readRegion (.text (Text.ofString value)) = .ok region) :
    load [(regionName, value)] [] = .ok (ofRegion region) := by
  have habsent (name : String) (hne : ¬ regionName.toList.map lowerAscii = name.toList.map lowerAscii) :
      given? [(regionName, value)] [] name = none := by
    rw [given?_singleton, if_neg (foldedName_eq_iff.not.mpr hne)]
  exact load_eq_ok_iff.mpr {
    region := ⟨_, by rw [given?_singleton, if_pos rfl], h⟩
    endpoint := optional_of_absent (habsent _ (by decide)) _ _
    profile := optional_of_absent (habsent _ (by decide)) _ _
    nullKey := optional_of_absent (habsent _ (by decide)) _ _
    streamNaming := optional_of_absent (habsent _ (by decide)) _ _
    batchSize := optional_of_absent (habsent _ (by decide)) _ _
    known := rfl }

theorem given?_argument_of_ne {name name' : String} {payload : Payload}
    (hne : ¬ name.toList.map lowerAscii = name'.toList.map lowerAscii) :
    given? environment [(name, payload)] name' = given? environment [] name' := by
  have hargument : argument? [(name, payload)] name' = none := by
    simp [argument?, foldedName_eq_iff.not.mpr hne]
  rw [given?, hargument]
  rfl

theorem load_nullKey {payload : Payload} {key : Text} (h : load environment [] = .ok settings)
    (hkey : readNullKey payload = .ok key) :
    load environment [(nullKeyName, payload)] = .ok { settings with nullKey := key } := by
  have loaded := load_eq_ok_iff.mp h
  have hnullKey : given? environment [(nullKeyName, payload)] nullKeyName = some payload := by
    simp [given?, argument?]
  obtain ⟨region, hgiven, hregion⟩ := loaded.region
  exact load_eq_ok_iff.mpr {
    region := ⟨region, (given?_argument_of_ne (by decide)).trans hgiven, hregion⟩
    endpoint := (optional_congr (given?_argument_of_ne (by decide)) _ _).trans loaded.endpoint
    profile := (optional_congr (given?_argument_of_ne (by decide)) _ _).trans loaded.profile
    nullKey := by rw [optional, hnullKey]; exact hkey
    streamNaming := (optional_congr (given?_argument_of_ne (by decide)) _ _).trans loaded.streamNaming
    batchSize := (optional_congr (given?_argument_of_ne (by decide)) _ _).trans loaded.batchSize
    known := by simp [unknown, names] }

/-- Some environment and arguments give the settings. -/
def Accepted (settings : Settings) : Prop :=
  ∃ environment arguments, load environment arguments = .ok settings

theorem Accepted.sound (accepted : settings.Accepted) : settings.Sound := by
  obtain ⟨environment, arguments, loaded⟩ := accepted
  exact sound_of_load loaded

end Settings

namespace Sink

/-- A sink of sound settings is open and goes by them; what can fail is the connection only. -/
theorem path_ofSettings {settings : Settings} (sound : settings.Sound) {source : ClientSource}
    {t : List Exchange} {r : Except Failure Sink} (h : Path (ofSettings settings source).run t r) :
    (∃ fault, source = .standard ∧ r = .error (.outside fault) ∧
      t = [⟨.connect ⟨settings.region, settings.endpoint, settings.profile⟩, .error fault⟩]) ∨
    ∃ (client : Client) (naming : StreamNaming), settings.streamNaming = Text.ofString naming.name ∧
      r = .ok ⟨client, settings.nullKey, sound.nullKey, naming.apply, true⟩ := by
  rcases Action.path_bind_iff.mp h with ⟨failure, hclient, rfl⟩ | ⟨client, t₁, t₂, hclient, hmade, rfl⟩
  · left
    cases source with
    | given client =>
      obtain ⟨_, -, hpure⟩ := Action.path_note_bind_iff.mp hclient
      cases (Action.path_pure_iff.mp hpure).2
    | standard =>
      rcases Action.path_bind_iff.mp hclient with ⟨e, hcall, he⟩ | ⟨_, _, _, -, hrest, -⟩
      · obtain ⟨answer, rfl, hanswer⟩ := Action.path_ofCall_iff.mp hcall
        cases answer with
        | error fault =>
          obtain rfl := Except.error.inj he
          obtain rfl := Except.error.inj hanswer
          exact ⟨fault, rfl, rfl, rfl⟩
        | ok client => cases hanswer
      · obtain ⟨_, -, hpure⟩ := Action.path_note_bind_iff.mp hrest
        cases (Action.path_pure_iff.mp hpure).2
  · right
    obtain ⟨naming, hnaming⟩ := sound.streamNaming
    refine ⟨client, naming, hnaming, ?_⟩
    have hmake : make client settings.nullKey naming.apply
        = .ok ⟨client, settings.nullKey, sound.nullKey, naming.apply, true⟩ := dif_neg sound.nullKey
    rw [hnaming, StreamNaming.ofName_name] at hmade
    obtain ⟨-, rfl⟩ := Action.path_ofExcept_iff.mp hmade
    exact hmake

end Sink

end EventDelivery

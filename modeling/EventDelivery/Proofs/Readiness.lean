import EventDelivery.Proofs.Conversion
import EventDelivery.Proofs.Healthy
import EventDelivery.Proofs.Partition

/-! What accepted settings are good for: a sink of every client, groups of events, and a partition key for the
events that have none. Only the last can fail, and only where the null key is no string. -/

namespace EventDelivery
set_option autoImplicit false

namespace Settings
variable {environment : Environment} {arguments : Field.Given} {settings : Settings}

theorem length_le_of_readNullKey {payload : Payload} {key : Text} (h : readNullKey payload = .ok key) :
    key.length ≤ nullKeyLimit := by
  obtain ⟨read, -, h⟩ := bind_eq_ok_iff.mp h
  split at h
  · cases h
  · split at h
    · cases h
    · rename_i hlimit
      obtain rfl := Except.ok.inj h
      exact Nat.le_of_not_lt hlimit

theorem length_nullKey_of_load (h : load environment arguments = .ok settings) :
    settings.nullKey.length ≤ nullKeyLimit :=
  of_optional (·.length ≤ nullKeyLimit) (load_eq_ok_iff.mp h).nullKey (by decide) fun _ _ => length_le_of_readNullKey

end Settings

/-- An open sink of the client, with the null key and the naming of the settings. -/
structure Sink.MadeOf (settings : Settings) (client : Client) (sink : Sink) : Prop where
  client : sink.client = client
  nullKey : sink.nullKey = settings.nullKey
  naming : ∃ naming : StreamNaming, settings.streamNaming = Text.ofString naming.name ∧ sink.naming = naming.apply
  isOpen : sink.isOpen

theorem Sink.run_ofSettings {settings : Settings} (sound : settings.Sound) (client : Client) :
    ∃ sink : Sink, sink.MadeOf settings client ∧ ∀ {σ : Type} (world : World σ) (s : σ),
      Interaction.run world (ofSettings settings (.given client)).run s
        = (.ok sink, (world (.note (.clientCreated (.custom client.label))) s).2) := by
  obtain ⟨naming, hnaming⟩ := sound.streamNaming
  refine ⟨⟨client, settings.nullKey, sound.nullKey, naming.apply, true⟩, ?_, ?_⟩
  · exact ⟨rfl, rfl, ⟨naming, hnaming, rfl⟩, rfl⟩
  · intro σ world s
    simp only [ofSettings_eq, build_of_named sound.nullKey hnaming]
    rfl

section Groups
variable {α : Type} {size : Int} {items : List α}

theorem cuts_groups (positive : 1 ≤ size) (items : List α) : Cuts size.toNat items (groups size items) := by
  have hsize : ((size.toNat : Nat) : Int) = size := Int.toNat_of_nonneg (by omega)
  have hpositive : 0 < size.toNat := by omega
  have hgroups := groups_eq_windows hpositive items
  rw [hsize] at hgroups
  exact hgroups ▸ cuts_windows items

theorem length_of_mem_groups (positive : 1 ≤ size) {group : List α} (h : group ∈ groups size items) :
    1 ≤ group.length ∧ group.length ≤ size := by
  have hcuts := cuts_groups positive items
  have hnonempty := List.length_pos_iff.mpr (hcuts.nonempty group h)
  have hbounded := hcuts.bounded group h
  omega

end Groups

namespace Event
variable {event : Event} {nullKey : Text} {position : Nat}

theorem partitionKey_of_isVoid (keyless : event.key.isVoid) : event.partitionKey nullKey = .ok nullKey :=
  partitionKey_eq_ok_iff.mpr (by rw [if_pos keyless])

theorem exists_keylessRecord {key : String} (keyless : event.key.isVoid)
    (value : event.value.isNull ∨ ∃ content, event.value.renderBytes = .ok content)
    (nonempty : nullKey ≠ []) (string : nullKey.toString? = some key) :
    ∃ record, event.toRecord nullKey (.int position) = .ok record ∧ record.partitionKey = key := by
  obtain ⟨content, hdata⟩ := exists_data_iff.mpr value
  have hkey : key ≠ "" := Text.toString?_ne_empty nonempty string
  refine ⟨⟨key, hkey, content, position⟩, ?_, rfl⟩
  exact toRecord_eq_ok_iff.mpr ⟨nullKey, partitionKey_of_isVoid keyless, string, hdata, rfl⟩

theorem toRecord_of_loneNullKey (keyless : event.key.isVoid)
    (value : event.value.isNull ∨ ∃ content, event.value.renderBytes = .ok content)
    (lone : nullKey.toString? = none) :
    event.toRecord nullKey (.int position) = .error (.invalid [⟨some "partition_key", .notUnicode⟩]) := by
  obtain ⟨content, hdata⟩ := exists_data_iff.mpr value
  rw [toRecord_of_ok (partitionKey_of_isVoid keyless) hdata, Record.ofFields_of_lone lone]
  rfl

end Event

namespace Settings
variable {environment : Environment} {arguments : Field.Given} {settings : Settings}

/-- Accepted settings make an open sink of every client, and cut events into groups that are neither empty nor too
long. They also have a partition key of up to 256 characters for every event without a key, as long as the null key
is a string: it may have half of a surrogate pair, and then none of these events has a record. -/
theorem accepted_suffice (h : load environment arguments = .ok settings) :
    (∀ client : Client, ∃ sink : Sink, sink.MadeOf settings client ∧ ∀ {σ : Type} (world : World σ) (s : σ),
      Interaction.run world (Sink.ofSettings settings (.given client)).run s
        = (.ok sink, (world (.note (.clientCreated (.custom client.label))) s).2)) ∧
    (∀ {α : Type} (items : List α), (groups settings.batchSize items).flatten = items ∧
      ∀ group ∈ groups settings.batchSize items, 1 ≤ group.length ∧ group.length ≤ settings.batchSize) ∧
    ∀ (event : Event) (position : Nat), event.key.isVoid →
      (event.value.isNull ∨ ∃ content, event.value.renderBytes = .ok content) →
      (∀ key, settings.nullKey.toString? = some key →
        1 ≤ key.length ∧ key.length ≤ 256 ∧ ∃ record,
          event.toRecord settings.nullKey (.int position) = .ok record ∧ record.partitionKey = key) ∧
      (settings.nullKey.toString? = none → event.toRecord settings.nullKey (.int position)
        = .error (.invalid [⟨some "partition_key", .notUnicode⟩])) := by
  have hsound := sound_of_load h
  refine ⟨Sink.run_ofSettings hsound, ?_, ?_⟩
  · intro α items
    exact ⟨(cuts_groups hsound.batchSize items).flatten, fun _ => length_of_mem_groups hsound.batchSize⟩
  · intro event position keyless value
    refine ⟨?_, Event.toRecord_of_loneNullKey keyless value⟩
    intro key hstring
    have hlength : settings.nullKey.length = key.length := by
      rw [Text.toString?_eq_some_iff.mp hstring, Text.ofString, Text.ofList, List.length_map, String.length_toList]
    have hpositive := List.length_pos_iff.mpr hsound.nullKey
    have hlimit : settings.nullKey.length ≤ 256 := length_nullKey_of_load h
    exact ⟨by omega, by omega, Event.exists_keylessRecord keyless value hsound.nullKey hstring⟩

theorem encodedKey_suffices :
    load [(regionName, "r")] [(nullKeyName, .bytes .fixed "é".toUTF8)]
      = .ok { ofRegion (Text.ofString "r") with nullKey := Text.ofString "é" } ∧
    (∃ sink : Sink, sink.nullKey = Text.ofString "é" ∧ sink.isOpen) ∧
    (groups 2048 [Service.bareEvent]).flatten = [Service.bareEvent] ∧
    Service.bareEvent.key.isVoid ∧ Service.bareEvent.value.isNull ∧
    ∃ record, Service.bareEvent.toRecord (Text.ofString "é") (.int (0 : Nat)) = .ok record ∧
      record.partitionKey = "é" := by
  have hkey : readNullKey (.bytes .fixed "é".toUTF8) = .ok (Text.ofString "é") := rfl
  have hload := load_nullKey Service.load_cutRun hkey
  obtain ⟨hsinks, hgroups, hrecords⟩ := accepted_suffice hload
  obtain ⟨sink, hmade, -⟩ := hsinks ⟨"client", false⟩
  obtain ⟨-, -, hrecord⟩ := (hrecords Service.bareEvent 0 rfl (.inl rfl)).1 "é" (Text.toString?_ofString "é")
  exact ⟨hload, ⟨sink, hmade.nullKey, hmade.isOpen⟩, (hgroups _).1, rfl, rfl, hrecord⟩

/-- Half of a surrogate pair is accepted as a null key, and there is no record with it. -/
theorem loneKey_does_not_suffice :
    load [(regionName, "r")] [(nullKeyName, .text [.lone 0])] = .ok (Service.loneSettings 0) ∧
    Service.bareEvent.key.isNull ∧ Service.bareEvent.value.isNull ∧
    ∀ record, Service.bareEvent.toRecord (Service.loneSettings 0).nullKey (.int (0 : Nat)) ≠ .ok record := by
  have hkey : readNullKey (.text [.lone 0]) = .ok [.lone 0] := rfl
  refine ⟨load_nullKey Service.load_cutRun hkey, rfl, rfl, ?_⟩
  intro record h
  have hlone : Service.bareEvent.toRecord [.lone 0] (.int (0 : Nat)) = _ :=
    Event.toRecord_of_loneNullKey rfl (.inl rfl) (by decide)
  cases hlone.symm.trans h

end Settings

end EventDelivery

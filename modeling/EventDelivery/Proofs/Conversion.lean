import EventDelivery.Proofs.OneLine
import EventDelivery.Proofs.WindowRecords

/-! The conversion of a window. Each event becomes the record at its position, or the window fails as the first
event does that has no record. The null key stands in for a key only where nothing is there to be rendered: every
other key is rendered with at least one character, also those that count as false. -/

namespace EventDelivery
set_option autoImplicit false

namespace Payload

/-- Nothing is there to be rendered: the payload is missing, or text or bytes without content. -/
def isVoid : Payload → Bool
  | null => true
  | text t => t.isEmpty
  | bytes _ content => content.isEmpty
  | _ => false

section
variable {payload : Payload}

theorem modelDocument?_ne_nil {fields : List (String × Payload)} {cs : List Char}
    (h : modelDocument? fields = some cs) : cs ≠ [] := by
  unfold modelDocument? at h
  split at h
  · obtain ⟨parts, -, rfl⟩ := Option.map_eq_some_iff.mp h
    exact List.cons_ne_nil _ _
  · cases h

theorem renderContainer_ne_nil (container : payload.isContainer) {t : Text}
    (h : payload.renderContainer = .ok t) : t ≠ [] := by
  unfold renderContainer at h
  split at h
  · rename_i cs hcs
    obtain rfl := Except.ok.inj h
    exact Text.ofList_ne_nil (ne_nil_of_compact container hcs)
  · cases h

theorem isVoid_of_renderText (h : payload.renderText = .ok []) : payload.isVoid := by
  unfold renderText at h
  split at h
  case h_1 t =>
    obtain rfl : t = [] := Except.ok.inj h
    rfl
  case h_2 kind content =>
    split at h
    · rename_i cs hcs
      obtain rfl : cs = [] := List.map_eq_nil_iff.mp (Except.ok.inj h)
      obtain rfl := decoded?_eq_some_iff.mp hcs
      rfl
    · cases h
  case h_3 fields =>
    split at h
    · rename_i cs hcs
      exact absurd (Except.ok.inj h) (Text.ofList_ne_nil (modelDocument?_ne_nil hcs))
    · cases h
  case h_4 b => cases b <;> cases h
  case h_5 n =>
    rw [mapError_eq_ok_iff, display_int] at h
    exact absurd rfl (integerText_ne_nil h)
  case h_6 x => exact absurd (Except.ok.inj h) (Text.ofList_ne_nil (FloatForm.write_text_ne_nil x))
  case h_7 =>
    split at h
    · rename_i hcontainer
      exact absurd rfl (renderContainer_ne_nil hcontainer h)
    · cases h

theorem renderText_of_isVoid (present : payload.isNull = false) (void : payload.isVoid) :
    payload.renderText = .ok [] := by
  cases payload with
  | null => cases present
  | text t => exact congrArg Except.ok (List.isEmpty_iff.mp void)
  | bytes kind content =>
    obtain rfl : content = .empty := ByteArray.ext (Array.isEmpty_iff.mp void)
    exact renderText_bytes_eq_ok_iff.mpr ⟨"", rfl, rfl⟩
  | _ => cases void

theorem isVoid_of_isNull (h : payload.isNull) : payload.isVoid := by
  cases payload with
  | null => rfl
  | _ => cases h

theorem not_isNull_of_renderText {t : Text} (h : payload.renderText = .ok t) : payload.isNull = false := by
  cases payload with
  | null => cases h
  | _ => rfl

end

end Payload

namespace Event
variable {event : Event} {position : Nat}

section
variable {nullKey key : Text} {cause : RenderFailure}

/-- The null key stands in where nothing is there to be rendered, and nowhere else. -/
theorem partitionKey_eq_ok_iff :
    event.partitionKey nullKey = .ok key ↔
      if event.key.isVoid then key = nullKey else event.key.renderText = .ok key := by
  rw [partitionKey_eq, map_eq_ok_iff]
  by_cases hvoid : event.key.isVoid
  · have hrendered : (if event.key.isNull then .ok [] else event.key.renderText) = Except.ok ([] : Text) := by
      split
      · rfl
      · rename_i hpresent
        exact Payload.renderText_of_isVoid (Bool.eq_false_iff.mpr hpresent) hvoid
    rw [hrendered, if_pos hvoid]
    constructor
    · rintro ⟨_, hkey, rfl⟩
      rw [← Except.ok.inj hkey]
      rfl
    · rintro rfl
      exact ⟨[], rfl, rfl⟩
  · rw [if_neg (mt Payload.isVoid_of_isNull hvoid), if_neg hvoid]
    constructor
    · rintro ⟨t, ht, rfl⟩
      have hkey : t ≠ [] := by
        rintro rfl
        exact hvoid (Payload.isVoid_of_renderText ht)
      rw [ht, if_neg (mt List.isEmpty_iff.mp hkey)]
    · intro h
      have hkey : key ≠ [] := by
        rintro rfl
        exact hvoid (Payload.isVoid_of_renderText h)
      exact ⟨key, h, if_neg (mt List.isEmpty_iff.mp hkey)⟩

theorem partitionKey_ne_nil (nonempty : nullKey ≠ []) (h : event.partitionKey nullKey = .ok key) : key ≠ [] := by
  rw [partitionKey_eq_ok_iff] at h
  split at h
  · exact h ▸ nonempty
  · rename_i hvoid
    rintro rfl
    exact hvoid (Payload.isVoid_of_renderText h)

theorem exists_partitionKey_iff :
    (∃ key, event.partitionKey nullKey = .ok key) ↔ event.key.isNull ∨ ∃ t, event.key.renderText = .ok t := by
  rw [partitionKey_eq]
  cases event.key.isNull with
  | true => exact ⟨fun _ => .inl rfl, fun _ => ⟨_, rfl⟩⟩
  | false => simp [map_eq_ok_iff]

theorem partitionKey_eq_error_iff :
    event.partitionKey nullKey = .error cause ↔
      event.key.isNull = false ∧ event.key.renderText = .error cause := by
  rw [partitionKey_eq]
  cases event.key.isNull with
  | true => simp [Except.map]
  | false => cases event.key.renderText <;> simp [Except.map]

end

/-- What a converted event leaves in its record, with a null key for events without a key. -/
structure ConvertedTo (nullKey : String) (position : Nat) (event : Event) (record : Record) : Prop where
  position : record.position = position
  data : if event.value.isNull then record.data = .empty else event.value.renderBytes = .ok record.data
  nonempty : record.partitionKey ≠ ""
  standsIn : record.partitionKey = nullKey ↔
    event.key.isVoid ∨ event.key.renderText = .ok (Text.ofString nullKey)
  rendered : ¬ event.key.isVoid → event.key.renderText = .ok (Text.ofString record.partitionKey)

/-- Why an event has no record. The key is rendered before the value; what is rendered of it is looked at last. -/
inductive Fails (event : Event) : Failure → Prop where
  | key {cause : RenderFailure} (present : event.key.isNull = false)
      (unrendered : event.key.renderText = .error cause) : Fails event (.rendering cause)
  | value {cause : RenderFailure} (key : event.key.isNull ∨ ∃ t, event.key.renderText = .ok t)
      (present : event.value.isNull = false) (unrendered : event.value.renderBytes = .error cause) :
      Fails event (.rendering cause)
  | lone {t : Text} (key : event.key.renderText = .ok t) (lone : t.toString? = none)
      (value : event.value.isNull ∨ ∃ content, event.value.renderBytes = .ok content) :
      Fails event (.invalid [⟨some "partition_key", .notUnicode⟩])

theorem data_eq_ok_iff {content : ByteArray} :
    event.data = .ok content ↔
      if event.value.isNull then content = .empty else event.value.renderBytes = .ok content := by
  unfold data
  split
  · rw [Except.ok.injEq, eq_comm]
  · exact Iff.rfl

theorem exists_data_iff :
    (∃ content, event.data = .ok content) ↔
      event.value.isNull ∨ ∃ content, event.value.renderBytes = .ok content := by
  unfold data
  cases event.value.isNull <;> simp

theorem data_eq_error_iff {cause : RenderFailure} :
    event.data = .error cause ↔ event.value.isNull = false ∧ event.value.renderBytes = .error cause := by
  unfold data
  cases event.value.isNull <;> simp

section
variable {nullKey : String} {record : Record}

theorem toRecord_eq_ok_iff_convertedTo :
    event.toRecord (Text.ofString nullKey) (.int position) = .ok record ↔
      event.ConvertedTo nullKey position record := by
  rw [toRecord_eq_ok_iff]
  simp only [partitionKey_eq_ok_iff, data_eq_ok_iff, Text.toString?_eq_some_iff]
  constructor
  · rintro ⟨key, hkey, rfl, hdata, hposition⟩
    refine ⟨hposition, hdata, record.partitionKey_ne, ?_, ?_⟩
    · split at hkey
      · rename_i hvoid
        simp [hvoid, Text.ofString_injective hkey]
      · rename_i hvoid
        simp [hvoid, hkey]
    · intro hvoid
      rwa [if_neg hvoid] at hkey
  · intro h
    refine ⟨_, ?_, rfl, h.data, h.position⟩
    split
    · rename_i hvoid
      rw [h.standsIn.mpr (.inl hvoid)]
    · rename_i hvoid
      exact h.rendered hvoid

/-- Half of a surrogate pair is something to be rendered, so the null key does not stand in for it. -/
theorem partitionKey_of_lone {key : Text} (rendered : event.key.renderText = .ok key)
    (lone : key.toString? = none) : event.partitionKey (Text.ofString nullKey) = .ok key := by
  have hvoid : ¬ event.key.isVoid := by
    intro hvoid
    rw [Payload.renderText_of_isVoid (Payload.not_isNull_of_renderText rendered) hvoid] at rendered
    rw [← Except.ok.inj rendered] at lone
    cases lone
  exact partitionKey_eq_ok_iff.mpr (by rwa [if_neg hvoid])

variable {failure : Failure}

theorem fails_of_toRecord (nonempty : nullKey ≠ "")
    (h : event.toRecord (Text.ofString nullKey) (.int position) = .error failure) : event.Fails failure := by
  have hnull : Text.ofString nullKey ≠ [] := fun h => nonempty (Text.ofString_injective h)
  cases hkey : event.partitionKey (Text.ofString nullKey) with
  | error cause =>
    obtain ⟨hpresent, hcause⟩ := partitionKey_eq_error_iff.mp hkey
    rw [toRecord_of_key_error hkey] at h
    obtain rfl := Except.error.inj h
    exact .key hpresent hcause
  | ok key =>
    cases hdata : event.data with
    | error cause =>
      obtain ⟨hpresent, hcause⟩ := data_eq_error_iff.mp hdata
      rw [toRecord_of_data_error hkey hdata] at h
      obtain rfl := Except.error.inj h
      exact .value (exists_partitionKey_iff.mp ⟨key, hkey⟩) hpresent hcause
    | ok content =>
      rw [toRecord_of_ok hkey hdata] at h
      cases hstring : key.toString? with
      | some s =>
        obtain ⟨record, hrecord⟩ : ∃ record, Record.ofFields (Record.given key content position) = .ok record :=
          Record.exists_ofFields hstring (partitionKey_ne_nil hnull hkey)
        rw [hrecord] at h
        cases h
      | none =>
        rw [Record.ofFields_of_lone hstring] at h
        obtain rfl := Except.error.inj h
        rw [partitionKey_eq_ok_iff] at hkey
        split at hkey
        · rw [hkey, Text.toString?_ofString] at hstring
          cases hstring
        · exact .lone hkey hstring (exists_data_iff.mp ⟨content, hdata⟩)

theorem toRecord_of_fails (h : event.Fails failure) :
    event.toRecord (Text.ofString nullKey) (.int position) = .error failure := by
  cases h with
  | key present unrendered => exact toRecord_of_key_error (partitionKey_eq_error_iff.mpr ⟨present, unrendered⟩)
  | value key present unrendered =>
    obtain ⟨key, hkey⟩ := exists_partitionKey_iff.mpr key
    exact toRecord_of_data_error hkey (data_eq_error_iff.mpr ⟨present, unrendered⟩)
  | lone key lone value =>
    obtain ⟨content, hdata⟩ := exists_data_iff.mpr value
    rw [toRecord_of_ok (partitionKey_of_lone key lone) hdata, Record.ofFields_of_lone lone]
    rfl

theorem toRecord_eq_error_iff (nonempty : nullKey ≠ "") :
    event.toRecord (Text.ofString nullKey) (.int position) = .error failure ↔ event.Fails failure :=
  ⟨fails_of_toRecord nonempty, toRecord_of_fails⟩

end

end Event

section Windows
variable {nullKey : String} {events : List Event}

theorem toRecords_eq_ok_iff {records : List Record} :
    toRecords (Text.ofString nullKey) events = .ok records ↔
      records.length = events.length ∧ ∀ (i : Nat) (event : Event) (record : Record),
        events[i]? = some event → records[i]? = some record → event.ConvertedTo nullKey i record := by
  constructor
  · intro h
    refine ⟨length_of_toRecords h, ?_⟩
    intro i event record hevent hrecord
    obtain ⟨event', hevent', hconverted⟩ := toRecord_of_toRecords h hrecord
    obtain rfl := Option.some.inj (hevent.symm.trans hevent')
    exact Event.toRecord_eq_ok_iff_convertedTo.mp hconverted
  · rintro ⟨hlength, h⟩
    rw [toRecords, mapM_eq_ok_iff, List.forall₂_iff_get]
    refine ⟨by rw [List.length_zipIdx, hlength], ?_⟩
    intro i hi hrecord
    have hevent : i < events.length := by rwa [List.length_zipIdx] at hi
    have hconverted := h i _ _ (List.getElem?_eq_getElem hevent) (List.getElem?_eq_getElem hrecord)
    simpa using Event.toRecord_eq_ok_iff_convertedTo.mpr hconverted

theorem toRecords_eq_error_iff {failure : Failure} :
    toRecords (Text.ofString nullKey) events = .error failure ↔
      ∃ (i : Nat) (event : Event), events[i]? = some event ∧
        event.toRecord (Text.ofString nullKey) (.int i) = .error failure ∧
        ∀ j < i, ∀ earlier : Event, events[j]? = some earlier →
          ∃ record, earlier.toRecord (Text.ofString nullKey) (.int j) = .ok record := by
  rw [toRecords, mapM_eq_error_iff]
  simp [List.getElem?_zipIdx]

/-- A window is converted event by event. Each of them becomes the record at its position, with its value as data;
the null key is the partition key just where there is no key, or none but empty text or bytes, or where the key
itself is rendered as the null key, and every other key is kept as it is rendered. Or the window fails, and then as the
first event does that has no record, with the key tried before the value. -/
theorem toRecords_converts {nullKey : String} (nonempty : nullKey ≠ "") (events : List Event) :
    (∀ records, toRecords (Text.ofString nullKey) events = .ok records ↔
      records.length = events.length ∧ ∀ (i : Nat) (event : Event) (record : Record),
        events[i]? = some event → records[i]? = some record → event.ConvertedTo nullKey i record) ∧
    ∀ failure, toRecords (Text.ofString nullKey) events = .error failure ↔
      ∃ (i : Nat) (event : Event), events[i]? = some event ∧ event.Fails failure ∧
        event.toRecord (Text.ofString nullKey) (.int i) = .error failure ∧
        ∀ j < i, ∀ earlier : Event, events[j]? = some earlier →
          ∃ record, earlier.toRecord (Text.ofString nullKey) (.int j) = .ok record := by
  refine ⟨fun records => toRecords_eq_ok_iff, fun failure => ?_⟩
  rw [toRecords_eq_error_iff]
  constructor
  · rintro ⟨i, event, hevent, hfailure, hbefore⟩
    exact ⟨i, event, hevent, (Event.toRecord_eq_error_iff nonempty).mp hfailure, hfailure, hbefore⟩
  · rintro ⟨i, event, hevent, -, hfailure, hbefore⟩
    exact ⟨i, event, hevent, hfailure, hbefore⟩

/-- Keys that count as false, among them all that give way to the null key. -/
def falseKeys : List Payload :=
  [.bool false, .int 0, .float (.finite true 0), .sequence .list [], .mapping false [], .null, .text [],
    .bytes .view .empty]

/-- Zeros, falsehood and empty containers keep what is rendered of them. Where the key of an event is a set and its
value half of a surrogate pair, the key is what fails, and no event after it is looked at. -/
theorem falseKeys_converted :
    "default" ≠ "" ∧
    (∃ records, toRecords (Text.ofString "default") (falseKeys.map fun key => ⟨key, .null, []⟩) = .ok records ∧
      records.map Record.partitionKey
        = ["False", "0", "-0.0", "[]", "\x7b\x7d", "default", "default", "default"] ∧
      ∀ (i : Nat) (event : Event) (record : Record),
        (falseKeys.map fun key => (⟨key, .null, []⟩ : Event))[i]? = some event → records[i]? = some record →
          event.ConvertedTo "default" i record) ∧
    ∃ (i : Nat) (event : Event),
      [⟨.bool true, .null, []⟩, ⟨.set false [], .text [.lone 0], []⟩, ⟨.object, .null, []⟩][i]? = some event ∧
        event.Fails (.rendering (.unexpected "set")) := by
  refine ⟨by decide, ?_, ?_⟩
  · have hkeys : (toRecords (Text.ofString "default") (falseKeys.map fun key => ⟨key, .null, []⟩)).toOption.map
        (·.map Record.partitionKey)
          = some ["False", "0", "-0.0", "[]", "\x7b\x7d", "default", "default", "default"] := by
      decide +kernel
    cases h : toRecords (Text.ofString "default") (falseKeys.map fun key => ⟨key, .null, []⟩) with
    | error failure =>
      rw [h] at hkeys
      cases hkeys
    | ok records =>
      rw [h] at hkeys
      exact ⟨records, rfl, Option.some.inj hkeys, (((toRecords_converts (by decide) _).1 records).mp h).2⟩
  · have hfailed : toRecords (Text.ofString "default")
        [⟨.bool true, .null, []⟩, ⟨.set false [], .text [.lone 0], []⟩, ⟨.object, .null, []⟩]
          = .error (.rendering (.unexpected "set")) := rfl
    obtain ⟨i, event, hevent, hfails, -⟩ := ((toRecords_converts (by decide) _).2 _).mp hfailed
    exact ⟨i, event, hevent, hfails⟩

end Windows

end EventDelivery

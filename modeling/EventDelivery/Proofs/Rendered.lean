import EventDelivery.Record
import EventDelivery.Proofs.Document
import EventDelivery.Proofs.Except

/-! What is rendered. Every payload is rendered as text, refused with a report, or of one of three kinds that
fail without one; and a record is built from what is rendered unless half of a surrogate pair stands alone in
it. Documents within the limits of a reader are always rendered, and without such halves. -/

namespace EventDelivery
set_option autoImplicit false

namespace Payload

/-- Whether the compact form of a payload ends in a fault that blames what is written. -/
def isBlamed (payload : Payload) : Bool :=
  match payload.compact with
  | .ok _ => false
  | .error fault => fault.blamesValue

/-- Whether the compact form of a payload ends in any other fault. -/
def isInterrupted (payload : Payload) : Bool :=
  match payload.compact with
  | .ok _ => false
  | .error fault => !fault.blamesValue

/-- Whether a payload is refused with a report: bytes that encode no text, containers that are blamed when they
are written, and whatever has no rendering at all. A missing payload is not rendered in the first place. -/
def isRefused : Payload → Bool
  | null | text _ | bool _ | int _ | float _ | model _ => false
  | bytes _ content => (decoded? content).isNone
  | payload => !payload.isContainer || payload.isBlamed

/-- Whether the rendering of a payload fails without a report: an integer has too many digits, a model no
document, or something in a container raises a fault of its own. -/
def isUnwritable : Payload → Bool
  | int n => !withinDigitLimit n
  | model fields => (modelDocument? fields).isNone
  | payload => payload.isContainer && payload.isInterrupted

def isLone : Payload → Bool
  | text t => t.toString?.isNone
  | _ => false

/-- None of these keeps the payload from a record. -/
structure Renderable (payload : Payload) : Prop where
  accepted : payload.isRefused = false
  writable : payload.isUnwritable = false
  whole : payload.isLone = false

inductive Renders (payload : Payload) : Except RenderFailure Text → Prop where
  | written (renderable : payload.Renderable) {t : Text} {s : String} (string : t.toString? = some s) :
      Renders payload (.ok t)
  | lone (accepted : payload.isRefused = false) (writable : payload.isUnwritable = false)
      (lone : payload.isLone) {t : Text} (noString : t.toString? = none) : Renders payload (.ok t)
  | refused (refused : payload.isRefused) (writable : payload.isUnwritable = false)
      (whole : payload.isLone = false) {cause : RenderFailure} (reported : cause.isReported) :
      Renders payload (.error cause)
  | unwritable (unwritable : payload.isUnwritable) {cause : RenderFailure}
      (unreported : cause.isReported = false) : Renders payload (.error cause)

/-- Comparing integers by their display text unfolds the limit of digits, which is a number of 4300 digits:
this equation keeps it folded. -/
theorem display_int (n : Int) : (int n).display = integerText n := rfl

theorem integerText_of_within {n : Int} (h : withinDigitLimit n) :
    integerText n = .ok (Text.ofList (integerDigits n)) := if_pos h

theorem integerText_of_beyond {n : Int} (h : withinDigitLimit n = false) :
    integerText n = .error .tooManyDigits := if_neg (Bool.eq_false_iff.mp h)

theorem renders_of_other {payload : Payload}
    (accepts : payload.isRefused = (!payload.isContainer || payload.isBlamed))
    (writable : payload.isUnwritable = (payload.isContainer && payload.isInterrupted))
    (whole : payload.isLone = false) :
    Renders payload (if payload.isContainer then payload.renderContainer
      else .error (.unexpected payload.typeName)) := by
  split
  · rename_i hcontainer
    unfold renderContainer
    split
    · rename_i hok
      have hrenderable : payload.Renderable :=
        ⟨by simp [accepts, hcontainer, isBlamed, hok], by simp [writable, isInterrupted, hok], whole⟩
      exact .written hrenderable (Text.toString?_ofList _)
    · rename_i fault herror
      cases hblames : fault.blamesValue with
      | true =>
        exact .refused (by simp [accepts, isBlamed, herror, hblames])
          (by simp [writable, isInterrupted, herror, hblames]) whole rfl
      | false => exact .unwritable (by simp [writable, hcontainer, isInterrupted, herror, hblames]) rfl
  · rename_i hcontainer
    exact .refused (by simp [accepts, hcontainer]) (by simp [writable, hcontainer]) whole rfl

theorem renders_renderText {payload : Payload} (present : payload.isNull = false) :
    Renders payload payload.renderText := by
  unfold renderText
  split
  case h_1 t =>
    cases ht : t.toString? with
    | some s => exact .written ⟨rfl, rfl, by simp [isLone, ht]⟩ ht
    | none => exact .lone rfl rfl (by simp [isLone, ht]) ht
  case h_2 =>
    split
    · rename_i hsome
      exact .written ⟨by simp [isRefused, hsome], rfl, rfl⟩ (Text.toString?_ofList _)
    · rename_i hnone
      exact .refused (by simp [isRefused, hnone]) rfl rfl rfl
  case h_3 =>
    split
    · rename_i hsome
      exact .written ⟨rfl, by simp [isUnwritable, hsome], rfl⟩ (Text.toString?_ofList _)
    · rename_i hnone
      exact .unwritable (by simp [isUnwritable, hnone]) rfl
  case h_4 b => cases b <;> exact .written ⟨rfl, rfl, rfl⟩ (Text.toString?_ofString _)
  case h_5 n =>
    rw [display_int]
    cases hwithin : withinDigitLimit n with
    | true =>
      rw [integerText_of_within hwithin]
      exact .written ⟨rfl, by simp [isUnwritable, hwithin], rfl⟩ (Text.toString?_ofList _)
    | false =>
      rw [integerText_of_beyond hwithin]
      exact .unwritable (by simp [isUnwritable, hwithin]) rfl
  case h_6 x => exact .written ⟨rfl, rfl, rfl⟩ (Text.toString?_ofList _)
  case h_7 htext hbytes hmodel hbool hint hfloat =>
    cases payload with
    | null => cases present
    | bool b => exact absurd rfl (hbool b)
    | int n => exact absurd rfl (hint n)
    | float x => exact absurd rfl (hfloat x)
    | text t => exact absurd rfl (htext t)
    | bytes kind content => exact absurd rfl (hbytes kind content)
    | model fields => exact absurd rfl (hmodel fields)
    | _ => exact renders_of_other rfl rfl rfl

theorem renderText_of_isContainer {payload : Payload} (h : payload.isContainer) :
    payload.renderText = payload.renderContainer := by
  unfold renderText
  split
  case h_7 => exact if_pos h
  all_goals cases h

theorem renderContainer_of_compact {payload : Payload} {cs : List Char} (h : payload.compact = .ok cs) :
    payload.renderContainer = .ok (Text.ofList cs) := by
  rw [renderContainer, h]

end Payload

section Documents
variable {room : Nat} {document : Json}

theorem Json.renderText_of_isContainer (fits : document.Fits room)
    (container : document.toPayload.isContainer) :
    document.toPayload.renderText = .ok (Text.ofList document.spelling) := by
  rw [Payload.renderText_of_isContainer container, Payload.renderContainer_of_compact (compact_toPayload fits)]

theorem Json.renderable_toPayload (fits : document.Fits room) : document.toPayload.Renderable := by
  have hcompact := compact_toPayload fits
  cases document with
  | null | bool b | float x => exact ⟨rfl, rfl, rfl⟩
  | int n =>
    cases fits with
    | int within => exact ⟨rfl, by simp [toPayload, Payload.isUnwritable, within], rfl⟩
  | string s => exact ⟨rfl, rfl, by simp [toPayload, Payload.isLone]⟩
  | array items | object members =>
    simp only [toPayload] at hcompact ⊢
    exact ⟨by simp [Payload.isRefused, Payload.isContainer, Payload.isBlamed, hcompact],
      by simp [Payload.isUnwritable, Payload.isInterrupted, hcompact], rfl⟩

end Documents

section Bytes
open Payload (encodeText)

theorem Payload.encodeText_of_string {t : Text} {s : String} (h : t.toString? = some s) :
    encodeText t = .ok s.toUTF8 := by
  rw [encodeText, h]

theorem Payload.encodeText_of_lone {t : Text} (h : t.toString? = none) :
    encodeText t = .error .loneSurrogate := by
  rw [encodeText, h]

theorem Payload.renderBytes_eq_bind {payload : Payload} (h : ∀ kind content, payload ≠ .bytes kind content) :
    payload.renderBytes = payload.renderText.bind encodeText := by
  unfold renderBytes
  split
  · exact absurd rfl (h _ _)
  · rfl

end Bytes

section Records
variable {key : Text} {data : ByteArray} {position : Nat}

theorem Text.toString?_ne_empty {s : String} (nonempty : key ≠ []) (h : key.toString? = some s) : s ≠ "" := by
  rintro rfl
  obtain ⟨cs, hcs, heq⟩ := Option.map_eq_some_iff.mp h
  rw [eq_ofList_of_chars? hcs] at nonempty
  rw [String.ofList_eq_empty_iff.mp heq] at nonempty
  exact nonempty rfl

theorem Field.natural_int (n : Nat) : Field.natural (.int n) = .ok n := by
  simp only [natural, integer, bind_of_eq_ok rfl]
  rw [if_neg (by omega)]
  rfl

abbrev Record.given (key : Text) (data : ByteArray) (position : Nat) : Field.Given :=
  [("partition_key", .text key), ("data", .bytes .fixed data), ("position", .int position)]

theorem Record.ofFields_given :
    ofFields (given key data position)
      = match Field.properText (.text key) with
        | .ok key => .ok ⟨key.val, key.property, data, position⟩
        | .error cause => .error [⟨some "partition_key", cause⟩] := by
  have hdata : Field.required (given key data position) "data" Field.bytes = .ok data := rfl
  have hposition : Field.required (given key data position) "position" Field.natural = .ok position :=
    Field.natural_int position
  have hkey : Field.required (given key data position) "partition_key" Field.properText
      = Field.properText (.text key) := rfl
  rw [ofFields, hdata, hposition, hkey]
  cases Field.properText (.text key) <;> rfl

theorem Record.exists_ofFields {s : String} (h : key.toString? = some s) (nonempty : key ≠ []) :
    ∃ record, ofFields (given key data position) = .ok record := by
  have hkey : Field.properText (.text key) = .ok ⟨s, Text.toString?_ne_empty nonempty h⟩ := by
    simp only [Field.properText, Field.text, bind_of_eq_ok rfl, h,
      dif_neg (Text.toString?_ne_empty nonempty h)]
    rfl
  rw [ofFields_given, hkey]
  exact ⟨_, rfl⟩

theorem Field.properText_eq_ok_iff {proper : { s : String // s ≠ "" }} :
    Field.properText (.text key) = .ok proper ↔ key.toString? = some proper.val := by
  simp only [Field.properText, Field.text, bind_of_eq_ok rfl]
  constructor
  · intro h
    split at h
    · cases h
    · rename_i s hs
      split at h
      · cases h
      · obtain rfl := Except.ok.inj h
        exact hs
  · intro h
    rw [h]
    exact dif_neg proper.property

theorem Record.ofFields_of_lone (h : key.toString? = none) :
    ofFields (given key data position) = .error [⟨some "partition_key", .notUnicode⟩] := by
  have hkey : Field.properText (.text key) = .error .notUnicode := by
    simp only [Field.properText, Field.text, bind_of_eq_ok rfl, h]
    rfl
  rw [ofFields_given, hkey]

end Records

namespace Event
variable {nullKey : Text} {event : Event}

/-- The key of a record is the rendered key, unless there is none or nothing is rendered. -/
theorem partitionKey_eq :
    event.partitionKey nullKey
      = (if event.key.isNull then .ok [] else event.key.renderText).map fun key =>
          if key.isEmpty then nullKey else key := by
  unfold partitionKey
  cases event.key.isNull
  · cases event.key.renderText <;> rfl
  · rfl

variable {position : Nat} {key : Text} {data : ByteArray} {cause : RenderFailure}

theorem toRecord_of_key_error (h : event.partitionKey nullKey = .error cause) :
    event.toRecord nullKey (.int position) = .error (.rendering cause) := by
  rw [toRecord, h]
  rfl

theorem toRecord_of_data_error (hkey : event.partitionKey nullKey = .ok key)
    (h : event.data = .error cause) :
    event.toRecord nullKey (.int position) = .error (.rendering cause) := by
  rw [toRecord, hkey, h]
  rfl

theorem toRecord_of_ok (hkey : event.partitionKey nullKey = .ok key) (hdata : event.data = .ok data) :
    event.toRecord nullKey (.int position)
      = (Record.ofFields (Record.given key data position)).mapError .invalid := by
  rw [toRecord, hkey, hdata]
  rfl

theorem toRecord_eq_ok_iff {record : Record} :
    event.toRecord nullKey (.int position) = .ok record ↔
      ∃ key, event.partitionKey nullKey = .ok key ∧ key.toString? = some record.partitionKey ∧
        event.data = .ok record.data ∧ record.position = position := by
  constructor
  · intro h
    obtain ⟨key, hkey, hrest⟩ := bind_eq_ok_iff.mp h
    obtain ⟨data, hdata, -⟩ := bind_eq_ok_iff.mp hrest
    rw [mapError_eq_ok_iff] at hkey hdata
    rw [toRecord_of_ok hkey hdata, mapError_eq_ok_iff, Record.ofFields_given] at h
    refine ⟨key, hkey, ?_⟩
    split at h
    · rename_i proper hproper
      obtain rfl := Except.ok.inj h
      exact ⟨Field.properText_eq_ok_iff.mp hproper, hdata, rfl⟩
    · cases h
  · rintro ⟨key, hkey, hstring, hdata, rfl⟩
    have hproper : Field.properText (.text key) = .ok ⟨record.partitionKey, record.partitionKey_ne⟩ :=
      Field.properText_eq_ok_iff.mpr hstring
    rw [toRecord_of_ok hkey hdata, mapError_eq_ok_iff, Record.ofFields_given, hproper]

/-- Where the null key does not stand in for the key of an event, it does not matter. -/
theorem partitionKey_of_ne (h : event.partitionKey nullKey ≠ .ok nullKey) (other : Text) :
    event.partitionKey other = event.partitionKey nullKey := by
  rw [partitionKey_eq] at h
  rw [partitionKey_eq, partitionKey_eq]
  split at h
  · exact absurd rfl h
  · rename_i hpresent
    rw [if_neg hpresent]
    cases hkey : event.key.renderText with
    | error cause => rfl
    | ok key =>
      rw [hkey] at h
      by_cases hempty : key.isEmpty
      · exact absurd (congrArg Except.ok (if_pos hempty)) h
      · exact congrArg Except.ok ((if_neg hempty).trans (if_neg hempty).symm)

end Event

end EventDelivery

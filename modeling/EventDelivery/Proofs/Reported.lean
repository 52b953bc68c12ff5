import EventDelivery.Proofs.Rendered

/-! Which events fail without a report. A key or a value that is refused is reported as such. Five things end
the making of a record otherwise: an integer with too many digits, a model without a document, something in a
container that raises a fault of its own, and half of a surrogate pair in the text of the value or of the key. The
key is rendered first, then the value, and the characters of the key count last, so that a refusal may come before
each of them. -/

namespace EventDelivery.Event
set_option autoImplicit false

/-- Whether the value of an event is refused with a report. Bytes are taken as they are. -/
def isValueRefused (event : Event) : Bool :=
  match event.value with
  | .bytes .. => false
  | value => value.isRefused

/-- Whether an event fails without a report. -/
def escapes (event : Event) : Bool :=
  event.key.isUnwritable
    || (!event.key.isRefused && (event.value.isUnwritable || event.value.isLone))
    || (!event.isValueRefused && event.key.isLone)

inductive Keyed (event : Event) : Except RenderFailure Text → Prop where
  | proper (renderable : event.key.Renderable) {key : Text} {s : String} (nonempty : key ≠ [])
      (string : key.toString? = some s) : Keyed event (.ok key)
  | lone (accepted : event.key.isRefused = false) (writable : event.key.isUnwritable = false)
      (lone : event.key.isLone) {key : Text} (noString : key.toString? = none) : Keyed event (.ok key)
  | refused (refused : event.key.isRefused) (writable : event.key.isUnwritable = false)
      (whole : event.key.isLone = false) {cause : RenderFailure} (reported : cause.isReported) :
      Keyed event (.error cause)
  | unwritable (unwritable : event.key.isUnwritable) {cause : RenderFailure}
      (unreported : cause.isReported = false) : Keyed event (.error cause)

inductive Valued (event : Event) : Except RenderFailure ByteArray → Prop where
  | written (accepted : event.isValueRefused = false) (writable : event.value.isUnwritable = false)
      (whole : event.value.isLone = false) (data : ByteArray) : Valued event (.ok data)
  | refused (refused : event.isValueRefused) (writable : event.value.isUnwritable = false)
      (whole : event.value.isLone = false) {cause : RenderFailure} (reported : cause.isReported) :
      Valued event (.error cause)
  | unwritable (unwritable : event.value.isUnwritable) {cause : RenderFailure}
      (unreported : cause.isReported = false) : Valued event (.error cause)
  | lone (lone : event.value.isLone) {cause : RenderFailure} (unreported : cause.isReported = false) :
      Valued event (.error cause)

section Parts
variable {nullKey : Text} {s : String} {event : Event}

/-- The null key stands in for a key of nothing, and only for such a key. -/
theorem keyed_of_renders (nonempty : nullKey ≠ []) (string : nullKey.toString? = some s)
    {rendered : Except RenderFailure Text} (h : event.key.Renders rendered) :
    Keyed event (rendered.map fun key => if key.isEmpty then nullKey else key) := by
  cases h with
  | @written renderable key u hstring =>
    cases key with
    | nil => exact .proper renderable nonempty string
    | cons => exact .proper renderable (List.cons_ne_nil _ _) hstring
  | @lone accepted writable lone key noString =>
    cases key with
    | nil => cases noString
    | cons => exact .lone accepted writable lone noString
  | refused refused writable whole reported => exact .refused refused writable whole reported
  | unwritable unwritable unreported => exact .unwritable unwritable unreported

theorem keyed_partitionKey (nonempty : nullKey ≠ []) (string : nullKey.toString? = some s) :
    Keyed event (event.partitionKey nullKey) := by
  cases hkey : event.key with
  | null =>
    -- a missing key is rendered as nothing, which the null key stands in for
    have hrenderable : event.key.Renderable := by
      rw [hkey]
      exact ⟨rfl, rfl, rfl⟩
    have hpartition : event.partitionKey nullKey = .ok nullKey := by
      rw [partitionKey_eq, hkey]
      rfl
    rw [hpartition]
    exact .proper hrenderable nonempty string
  | _ =>
    have hpresent : event.key.isNull = false := by rw [hkey]; rfl
    have hpartition : event.partitionKey nullKey
        = event.key.renderText.map fun key => if key.isEmpty then nullKey else key := by
      rw [partitionKey_eq, hpresent, if_neg Bool.false_ne_true]
    rw [hpartition]
    exact keyed_of_renders nonempty string (Payload.renders_renderText hpresent)

theorem isValueRefused_eq (h : ∀ kind content, event.value ≠ .bytes kind content) :
    event.isValueRefused = event.value.isRefused := by
  unfold isValueRefused
  split
  · rename_i hvalue
    exact absurd hvalue (h _ _)
  · rfl

theorem valued_of_renders (h : ∀ kind content, event.value ≠ .bytes kind content)
    {rendered : Except RenderFailure Text} (renders : event.value.Renders rendered) :
    Valued event (rendered.bind Payload.encodeText) := by
  have hrefused := isValueRefused_eq h
  cases renders with
  | written renderable string =>
    rw [Except.bind, Payload.encodeText_of_string string]
    exact .written (hrefused.trans renderable.accepted) renderable.writable renderable.whole _
  | lone _ _ lone noString =>
    rw [Except.bind, Payload.encodeText_of_lone noString]
    exact .lone lone rfl
  | refused refused writable whole reported =>
    exact .refused (hrefused.trans refused) writable whole reported
  | unwritable unwritable unreported => exact .unwritable unwritable unreported

theorem valued_data : Valued event event.data := by
  cases hvalue : event.value with
  | null =>
    have hdata : event.data = .ok .empty := by rw [data, hvalue]; rfl
    rw [hdata]
    exact .written (by rw [isValueRefused, hvalue]; rfl) (by rw [hvalue]; rfl) (by rw [hvalue]; rfl) _
  | bytes kind content =>
    have hdata : event.data = .ok content := by rw [data, hvalue]; rfl
    rw [hdata]
    exact .written (by rw [isValueRefused, hvalue]) (by rw [hvalue]; rfl) (by rw [hvalue]; rfl) _
  | _ =>
    have hbytes : ∀ kind content, event.value ≠ .bytes kind content := by
      intro kind content h
      cases hvalue ▸ h
    have hnull : event.value.isNull = false := by rw [hvalue]; rfl
    have hdata : event.data = event.value.renderText.bind Payload.encodeText := by
      rw [data, hnull, if_neg Bool.false_ne_true, Payload.renderBytes_eq_bind hbytes]
    rw [hdata]
    exact valued_of_renders hbytes (Payload.renders_renderText hnull)

theorem exists_data_of_renderable (h : event.value.Renderable) : ∃ data, event.data = .ok data := by
  have hrefused : event.isValueRefused = false := by
    unfold isValueRefused
    split
    · rfl
    · exact h.accepted
  have hvalued : Valued event event.data := valued_data
  generalize event.data = data at hvalued
  cases hvalued with
  | written => exact ⟨_, rfl⟩
  | refused refused => exact absurd (hrefused.symm.trans refused) Bool.false_ne_true
  | unwritable unwritable => exact absurd (h.writable.symm.trans unwritable) Bool.false_ne_true
  | lone lone => exact absurd (h.whole.symm.trans lone) Bool.false_ne_true

theorem exists_toRecord_of_renderable (keyed : event.key.Renderable) (valued : event.value.Renderable)
    (nonempty : nullKey ≠ []) (string : nullKey.toString? = some s) (position : Nat) :
    ∃ record, event.toRecord nullKey (.int position) = .ok record := by
  obtain ⟨data, hdata⟩ := exists_data_of_renderable valued
  have hkeyed : Keyed event (event.partitionKey nullKey) := keyed_partitionKey nonempty string
  generalize hkey : event.partitionKey nullKey = key at hkeyed
  cases hkeyed with
  | @proper _ key t hne hstring =>
    obtain ⟨record, hrecord⟩ : ∃ record, Record.ofFields (Record.given key data position) = .ok record :=
      Record.exists_ofFields hstring hne
    refine ⟨record, ?_⟩
    rw [toRecord_of_ok hkey hdata, hrecord]
    rfl
  | lone _ _ lone => exact absurd (keyed.whole.symm.trans lone) Bool.false_ne_true
  | refused refused => exact absurd (keyed.accepted.symm.trans refused) Bool.false_ne_true
  | unwritable unwritable => exact absurd (keyed.writable.symm.trans unwritable) Bool.false_ne_true

end Parts

/-- An event ends in a record or in a report of what is refused, unless it is one of those that fail without
a report. -/
theorem reported_iff_not_escapes (event : Event) (nullKey : Text) (s : String) (position : Nat)
    (nonempty : nullKey ≠ []) (string : nullKey.toString? = some s) :
    ((∃ record, event.toRecord nullKey (.int position) = .ok record)
      ∨ ∃ cause : RenderFailure, event.toRecord nullKey (.int position) = .error (.rendering cause)
          ∧ cause.isReported)
      ↔ event.escapes = false := by
  have hkeyed : Keyed event (event.partitionKey nullKey) := keyed_partitionKey nonempty string
  have hvalued : Valued event event.data := valued_data
  generalize hkey : event.partitionKey nullKey = key at hkeyed
  generalize hdata : event.data = data at hvalued
  cases hkeyed with
  | unwritable unwritable unreported =>
    simp [toRecord_of_key_error hkey, escapes, unwritable, unreported]
  | refused refused writable whole reported =>
    simp [toRecord_of_key_error hkey, escapes, refused, writable, whole, reported]
  | @proper renderable key t hne hstring =>
    obtain ⟨accepted, writable, whole⟩ := renderable
    cases hvalued with
    | unwritable unwritable unreported =>
      simp [toRecord_of_data_error hkey hdata, escapes, accepted, unwritable, unreported]
    | lone lone unreported =>
      simp [toRecord_of_data_error hkey hdata, escapes, accepted, lone, unreported]
    | refused refused writable' whole' reported =>
      simp [toRecord_of_data_error hkey hdata, escapes, writable, refused, writable', whole', reported]
    | written accepted' writable' whole' data =>
      obtain ⟨record, hrecord⟩ : ∃ record, Record.ofFields (Record.given key data position) = .ok record :=
        Record.exists_ofFields hstring hne
      simp [toRecord_of_ok hkey hdata, hrecord, Except.mapError, escapes, writable, whole, writable', whole']
  | @lone accepted writable lone key hstring =>
    cases hvalued with
    | unwritable unwritable unreported =>
      simp [toRecord_of_data_error hkey hdata, escapes, accepted, unwritable, unreported]
    | lone lone' unreported =>
      simp [toRecord_of_data_error hkey hdata, escapes, accepted, lone', unreported]
    | refused refused writable' whole' reported =>
      simp [toRecord_of_data_error hkey hdata, escapes, writable, refused, writable', whole', reported]
    | written accepted' writable' whole' data =>
      have hrecord : Record.ofFields (Record.given key data position)
          = .error [⟨some "partition_key", .notUnicode⟩] := Record.ofFields_of_lone hstring
      simp [toRecord_of_ok hkey hdata, hrecord, Except.mapError, escapes, accepted', lone]

/-- An event with half of a surrogate pair in its key, and a value of no kind that is rendered. -/
def loneKeyed : Event := ⟨.text [.lone ⟨0, by decide⟩], .object, Text.ofString "orders"⟩

/-- The value is refused before anyone looks at the characters of the key. -/
theorem loneKeyed_reported :
    (∃ record, loneKeyed.toRecord (Text.ofString "default") (.int (0 : Nat)) = .ok record)
      ∨ ∃ cause : RenderFailure,
          loneKeyed.toRecord (Text.ofString "default") (.int (0 : Nat)) = .error (.rendering cause)
            ∧ cause.isReported :=
  (reported_iff_not_escapes loneKeyed (Text.ofString "default") "default" 0 (by decide)
    (Text.toString?_ofString "default")).mpr rfl

def loneValued : Event := ⟨.null, .text [.lone ⟨0, by decide⟩], Text.ofString "orders"⟩

/-- Text that has no encoding is no value of a record, and that is not reported. -/
theorem not_always_reported :
    ¬ ∀ (event : Event) (nullKey : Text) (s : String) (position : Nat), nullKey ≠ [] →
        nullKey.toString? = some s →
        (∃ record, event.toRecord nullKey (.int position) = .ok record)
          ∨ ∃ cause : RenderFailure, event.toRecord nullKey (.int position) = .error (.rendering cause)
              ∧ cause.isReported := by
  intro h
  have hevent := h loneValued (Text.ofString "default") "default" 0 (by decide)
    (Text.toString?_ofString "default")
  have herror : loneValued.toRecord (Text.ofString "default") (.int (0 : Nat))
      = .error (.rendering .loneSurrogate) := rfl
  rw [herror] at hevent
  rcases hevent with ⟨record, hrecord⟩ | ⟨cause, hcause, reported⟩
  · cases hrecord
  · cases hcause
    cases reported

end EventDelivery.Event

import EventDelivery.Payload.Literal
import EventDelivery.Proofs.Except

/-! Which payloads have no words: those that count as false, a record without fields, and an object that says
nothing. Every other payload that can be written at all is written with at least one character. -/

namespace EventDelivery
set_option autoImplicit false

theorem decimalDigits_ne_nil (n : Nat) : decimalDigits n ≠ [] := Nat.toDigits_ne_nil

theorem integerDigits_ne_nil (n : Int) : integerDigits n ≠ [] := by
  cases n with
  | ofNat n => exact decimalDigits_ne_nil n
  | negSucc n => exact List.cons_ne_nil _ _

theorem Decimal.numeral_ne_nil (d : Decimal) : d.numeral ≠ [] := by
  have hd := decimalDigits_ne_nil d.coefficient
  intro h
  obtain ⟨h, -⟩ := List.append_eq_nil_iff.mp h
  obtain ⟨-, h⟩ := List.append_eq_nil_iff.mp h
  -- wherever the point stands, digits stand at one side of it
  obtain ⟨dot, h⟩ : ∃ dot : Int, (if dot ≤ 0 then '0' :: '.' :: zeros (-dot) ++ decimalDigits d.coefficient
      else if (decimalDigits d.coefficient).length ≤ dot then
        decimalDigits d.coefficient ++ zeros (dot - (decimalDigits d.coefficient).length)
      else (decimalDigits d.coefficient).take dot.toNat
        ++ '.' :: (decimalDigits d.coefficient).drop dot.toNat) = [] := ⟨_, h⟩
  split at h
  · cases h
  · split at h <;> simp [hd] at h

theorem ExtendedDecimal.numeral_ne_nil (d : ExtendedDecimal) : d.numeral ≠ [] := by
  cases d with
  | finite d => exact d.numeral_ne_nil
  | infinite negative => cases negative <;> decide
  | nan negative signaling diagnostic => simp [numeral]

namespace FloatForm

theorem positional_ne_nil (form : FloatForm) {ds : List Char} (h : ds ≠ []) (unit : Int) :
    form.positional ds unit ≠ [] := by
  simp only [positional]
  split
  · simp [h]
  · split <;> simp

theorem scientific_ne_nil (form : FloatForm) (ds : List Char) (lead : Int) :
    form.scientific ds lead ≠ [] := by
  simp [scientific]

theorem write_text_ne_nil (x : Binary64) : text.write x ≠ [] := by
  cases x with
  | nan => decide
  | infinite negative => cases negative <;> decide
  | finite negative rank =>
    intro h
    obtain ⟨-, h⟩ := List.append_eq_nil_iff.mp h
    split at h
    · exact positional_ne_nil _ (decimalDigits_ne_nil _) _ h
    · exact scientific_ne_nil _ _ _ h

end FloatForm

theorem Date.text_ne_nil (d : Date) : d.text ≠ [] := by simp [Date.text]

theorem Moment.text_ne_nil (m : Moment) : m.text ≠ [] := by simp [Moment.text, Moment.withMark]

theorem Uuid.text_ne_nil (u : Uuid) : u.text ≠ [] := by simp [Uuid.text]

theorem complexText_ne_nil (re im : Binary64) : complexText re im ≠ [] := by
  simp only [complexText]
  split <;> simp

theorem Text.ofList_ne_nil {cs : List Char} (h : cs ≠ []) : Text.ofList cs ≠ [] := by
  simpa [Text.ofList] using h

namespace Payload

theorem enclosed_ne_nil {opening : String} (h : opening ≠ "") (body : Text) (closing : String) :
    enclosed opening body closing ≠ [] := by
  simp [enclosed, Text.ofString, Text.ofList, h]

theorem sequenceLiteral_ne_nil (kind : SequenceKind) (parts : List Text) :
    sequenceLiteral kind parts ≠ [] := by
  unfold sequenceLiteral
  split <;> exact enclosed_ne_nil (by decide) _ _

theorem setLiteral_ne_nil (frozen : Bool) (parts : List Text) : setLiteral frozen parts ≠ [] := by
  unfold setLiteral
  split <;> first | exact enclosed_ne_nil (by decide) _ _ | decide

theorem mappingLiteral_ne_nil (parts : List Text) : mappingLiteral parts ≠ [] :=
  enclosed_ne_nil (by decide) _ _

theorem bytesLiteral_ne_nil (kind : BytesKind) (content : ByteArray) :
    bytesLiteral kind content ≠ [] := by
  cases kind with
  | fixed => exact Text.ofList_ne_nil (List.cons_ne_nil _ _)
  | mutable => exact enclosed_ne_nil (by decide) _ _
  | view => exact Text.ofList_ne_nil (by decide)

theorem integerText_ne_nil {n : Int} {t : Text} (h : integerText n = .ok t) : t ≠ [] := by
  unfold integerText at h
  split at h
  · obtain rfl := Except.ok.inj h
    exact Text.ofList_ne_nil (integerDigits_ne_nil n)
  · cases h

theorem rangeLiteral_ne_nil {start stop step : Int} {t : Text}
    (h : rangeLiteral start stop step = .ok t) : t ≠ [] := by
  simp only [rangeLiteral, bind_eq_ok_iff] at h
  obtain ⟨first, -, last, -, stride, -, h⟩ := h
  obtain rfl := Except.ok.inj h
  exact enclosed_ne_nil (by decide) _ _

/-- A payload that is displayed as nothing though it counts as true: a record without fields, or an object that
says nothing. -/
def isBare : Payload → Bool
  | model [] => true
  | stranger _ _ (.ok []) => true
  | _ => false

theorem fieldLiterals_ne_nil {name : String} {value : Payload} {fields : List (String × Payload)}
    {parts : List Text} (h : fieldLiterals ((name, value) :: fields) = .ok parts) :
    List.intercalate (Text.ofString " ") parts ≠ [] := by
  simp only [fieldLiterals, bind_eq_ok_iff] at h
  obtain ⟨v, -, rest, -, h⟩ := h
  obtain rfl := Except.ok.inj h
  cases rest <;> simp [List.intercalate, Text.ofString, Text.ofList]

/-- Nothing else that counts as true is displayed as nothing. -/
theorem isBare_of_display_eq_nil {p : Payload} (h : p.display = .ok []) (truthy : p.isFalsy = false) :
    p.isBare = true := by
  cases p with
  | text t => simp_all [display, isFalsy]
  | int n =>
    simp only [display, literal] at h
    exact absurd rfl (integerText_ne_nil h)
  | float x => exact absurd (Except.ok.inj h) (Text.ofList_ne_nil (FloatForm.write_text_ne_nil x))
  | bytes kind content => exact absurd (Except.ok.inj h) (bytesLiteral_ne_nil kind content)
  | sequence kind items =>
    obtain ⟨parts, -, h⟩ := map_eq_ok_iff.mp h
    exact absurd h (sequenceLiteral_ne_nil kind parts)
  | range start stop step => exact absurd rfl (rangeLiteral_ne_nil h)
  | set frozen items =>
    obtain ⟨parts, -, h⟩ := map_eq_ok_iff.mp h
    exact absurd h (setLiteral_ne_nil frozen parts)
  | mapping readOnly entries =>
    cases readOnly with
    | true =>
      obtain ⟨parts, -, h⟩ := map_eq_ok_iff.mp h
      exact absurd h (mappingLiteral_ne_nil parts)
    | false =>
      obtain ⟨parts, -, h⟩ := map_eq_ok_iff.mp h
      exact absurd h (mappingLiteral_ne_nil parts)
  | decimal d => exact absurd (Except.ok.inj h) (Text.ofList_ne_nil d.numeral_ne_nil)
  | moment m => exact absurd (Except.ok.inj h) (Text.ofList_ne_nil m.text_ne_nil)
  | date d => exact absurd (Except.ok.inj h) (Text.ofList_ne_nil d.text_ne_nil)
  | uuid u => exact absurd (Except.ok.inj h) (Text.ofList_ne_nil u.text_ne_nil)
  | complex re im => exact absurd (Except.ok.inj h) (Text.ofList_ne_nil (complexText_ne_nil re im))
  | model fields =>
    cases fields with
    | nil => rfl
    | cons field fields =>
      obtain ⟨parts, hparts, h⟩ := map_eq_ok_iff.mp h
      exact absurd h (fieldLiterals_ne_nil hparts)
  | bool b => cases b <;> exact absurd h (by decide)
  | null => exact absurd h (by decide)
  | cyclicList items =>
    obtain ⟨parts, -, h⟩ := map_eq_ok_iff.mp h
    exact absurd h (sequenceLiteral_ne_nil .list _)
  | cyclicMapping entries key =>
    obtain ⟨parts, -, h⟩ := bind_eq_ok_iff.mp h
    obtain ⟨k, -, h⟩ := bind_eq_ok_iff.mp h
    exact absurd (Except.ok.inj h) (mappingLiteral_ne_nil _)
  | stranger kind literal display =>
    obtain rfl : display = .ok [] := h
    rfl

end Payload

end EventDelivery

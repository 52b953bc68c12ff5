import EventDelivery.Proofs.Rendered

/-! Bytes and the characters that they encode. Which bytes encode text is told by a grammar over their values:
a character takes as few bytes as it can, is no half of a surrogate pair, and lies within the range of Unicode.
Bytes of that form, and only those, are rendered as text, and then as the text that they encode; so text and
bytes are two views of one rendering. -/

namespace EventDelivery
set_option autoImplicit false

namespace Utf8

/-- A byte of a character that does not begin it. -/
abbrev Continues (b : UInt8) : Prop := 0x80 ≤ b ∧ b ≤ 0xBF

/-- Bytes that are the encodings of characters, one after the other. The first byte of a character tells how
many there are; where three or four could encode less, half of a pair or more than there is, the second is
bounded too. -/
inductive WellFormed : List UInt8 → Prop where
  | nil : WellFormed []
  | one {a : UInt8} {rest : List UInt8} (lead : a ≤ 0x7F) (more : WellFormed rest) : WellFormed (a :: rest)
  | two {a b : UInt8} {rest : List UInt8} (lead : 0xC2 ≤ a ∧ a ≤ 0xDF) (second : Continues b)
      (more : WellFormed rest) : WellFormed (a :: b :: rest)
  | three {a b c : UInt8} {rest : List UInt8} (lead : 0xE0 ≤ a ∧ a ≤ 0xEF) (second : Continues b)
      (third : Continues c) (shortest : a = 0xE0 → 0xA0 ≤ b) (whole : a = 0xED → b ≤ 0x9F)
      (more : WellFormed rest) : WellFormed (a :: b :: c :: rest)
  | four {a b c d : UInt8} {rest : List UInt8} (lead : 0xF0 ≤ a ∧ a ≤ 0xF4) (second : Continues b)
      (third : Continues c) (fourth : Continues d) (shortest : a = 0xF0 → 0x90 ≤ b)
      (inRange : a = 0xF4 → b ≤ 0x8F) (more : WellFormed rest) : WellFormed (a :: b :: c :: d :: rest)

section Characters
variable {a b c d : UInt8}

theorem toNat_val_ofNat {v : Nat} (valid : v.isValidChar) : (Char.ofNat v).val.toNat = v := by
  rw [Char.ofNat, dif_pos valid]
  rfl

theorem exists_char_of_one (lead : a ≤ 0x7F) : ∃ x : Char, String.utf8EncodeChar x = [a] := by
  simp only [UInt8.le_iff_toNat_le, UInt8.reduceToNat] at lead
  obtain ⟨v, hv⟩ : ∃ v, v = a.toNat := ⟨_, rfl⟩
  have hvalid : v.isValidChar := Or.inl (by omega)
  refine ⟨Char.ofNat v, ?_⟩
  simp only [String.utf8EncodeChar, toNat_val_ofNat hvalid]
  rw [if_pos (by omega)]
  simp only [List.cons.injEq, ← UInt8.toNat_inj, UInt8.toNat_ofNat', and_true]
  omega

theorem exists_char_of_two (lead : 0xC2 ≤ a ∧ a ≤ 0xDF) (second : Continues b) :
    ∃ x : Char, String.utf8EncodeChar x = [a, b] := by
  simp only [Continues, UInt8.le_iff_toNat_le, UInt8.reduceToNat] at lead second
  obtain ⟨v, hv⟩ : ∃ v, v = (a.toNat - 0xC0) * 0x40 + (b.toNat - 0x80) := ⟨_, rfl⟩
  have hvalid : v.isValidChar := Or.inl (by omega)
  refine ⟨Char.ofNat v, ?_⟩
  simp only [String.utf8EncodeChar, toNat_val_ofNat hvalid]
  rw [if_neg (by omega), if_pos (by omega)]
  simp only [List.cons.injEq, ← UInt8.toNat_inj, UInt8.toNat_ofNat', and_true]
  omega

theorem exists_char_of_three (lead : 0xE0 ≤ a ∧ a ≤ 0xEF) (second : Continues b) (third : Continues c)
    (shortest : a = 0xE0 → 0xA0 ≤ b) (whole : a = 0xED → b ≤ 0x9F) :
    ∃ x : Char, String.utf8EncodeChar x = [a, b, c] := by
  simp only [Continues, UInt8.le_iff_toNat_le, ← UInt8.toNat_inj, UInt8.reduceToNat]
    at lead second third shortest whole
  obtain ⟨v, hv⟩ : ∃ v, v = (a.toNat - 0xE0) * 0x1000 + (b.toNat - 0x80) * 0x40 + (c.toNat - 0x80) := ⟨_, rfl⟩
  -- the bound on the second byte leaves out the halves of surrogate pairs
  have hvalid : v.isValidChar := by
    by_cases hlow : a.toNat < 0xED ∨ a.toNat = 0xED
    · exact Or.inl (by omega)
    · exact Or.inr ⟨by omega, by omega⟩
  refine ⟨Char.ofNat v, ?_⟩
  simp only [String.utf8EncodeChar, toNat_val_ofNat hvalid]
  rw [if_neg (by omega), if_neg (by omega), if_pos (by omega)]
  simp only [List.cons.injEq, ← UInt8.toNat_inj, UInt8.toNat_ofNat', and_true]
  omega

theorem exists_char_of_four (lead : 0xF0 ≤ a ∧ a ≤ 0xF4) (second : Continues b) (third : Continues c)
    (fourth : Continues d) (shortest : a = 0xF0 → 0x90 ≤ b) (inRange : a = 0xF4 → b ≤ 0x8F) :
    ∃ x : Char, String.utf8EncodeChar x = [a, b, c, d] := by
  simp only [Continues, UInt8.le_iff_toNat_le, ← UInt8.toNat_inj, UInt8.reduceToNat]
    at lead second third fourth shortest inRange
  obtain ⟨v, hv⟩ : ∃ v, v = (a.toNat - 0xF0) * 0x40000 + (b.toNat - 0x80) * 0x1000
      + (c.toNat - 0x80) * 0x40 + (d.toNat - 0x80) := ⟨_, rfl⟩
  have hvalid : v.isValidChar := Or.inr ⟨by omega, by omega⟩
  refine ⟨Char.ofNat v, ?_⟩
  simp only [String.utf8EncodeChar, toNat_val_ofNat hvalid]
  rw [if_neg (by omega), if_neg (by omega), if_neg (by omega)]
  simp only [List.cons.injEq, ← UInt8.toNat_inj, UInt8.toNat_ofNat', and_true]
  omega

end Characters

section Texts

theorem exists_chars_of_wellFormed {bytes : List UInt8} (h : WellFormed bytes) :
    ∃ cs : List Char, bytes = cs.flatMap String.utf8EncodeChar := by
  -- one more character in front, whatever bytes it takes
  have hcons {x : Char} {front rest : List UInt8} (hx : String.utf8EncodeChar x = front)
      (hrest : ∃ cs : List Char, rest = cs.flatMap String.utf8EncodeChar) :
      ∃ cs : List Char, front ++ rest = cs.flatMap String.utf8EncodeChar := by
    obtain ⟨cs, rfl⟩ := hrest
    exact ⟨x :: cs, by rw [List.flatMap_cons, hx]⟩
  induction h with
  | nil => exact ⟨[], rfl⟩
  | one lead _ ih =>
    obtain ⟨x, hx⟩ := exists_char_of_one lead
    exact hcons hx ih
  | two lead second _ ih =>
    obtain ⟨x, hx⟩ := exists_char_of_two lead second
    exact hcons hx ih
  | three lead second third shortest whole _ ih =>
    obtain ⟨x, hx⟩ := exists_char_of_three lead second third shortest whole
    exact hcons hx ih
  | four lead second third fourth shortest inRange _ ih =>
    obtain ⟨x, hx⟩ := exists_char_of_four lead second third fourth shortest inRange
    exact hcons hx ih

theorem wellFormed_encodeChar_append (x : Char) {rest : List UInt8} (more : WellFormed rest) :
    WellFormed (String.utf8EncodeChar x ++ rest) := by
  have hvalid : x.val.toNat.isValidChar := x.valid
  simp only [Nat.isValidChar] at hvalid
  simp only [String.utf8EncodeChar]
  generalize x.val.toNat = v at hvalid
  split
  · refine .one ?_ more
    simp only [UInt8.le_iff_toNat_le, UInt8.toNat_ofNat', UInt8.reduceToNat]
    omega
  split
  · refine .two ?_ ?_ more
    all_goals
      simp only [Continues, UInt8.le_iff_toNat_le, UInt8.toNat_ofNat', UInt8.reduceToNat]
      omega
  split
  · refine .three ?_ ?_ ?_ ?_ ?_ more
    all_goals
      simp only [Continues, UInt8.le_iff_toNat_le, ← UInt8.toNat_inj, UInt8.toNat_ofNat', UInt8.reduceToNat]
      omega
  · refine .four ?_ ?_ ?_ ?_ ?_ ?_ more
    all_goals
      simp only [Continues, UInt8.le_iff_toNat_le, ← UInt8.toNat_inj, UInt8.toNat_ofNat', UInt8.reduceToNat]
      omega

theorem wellFormed_iff_exists_chars {bytes : List UInt8} :
    WellFormed bytes ↔ ∃ cs : List Char, bytes = cs.flatMap String.utf8EncodeChar := by
  refine ⟨exists_chars_of_wellFormed, ?_⟩
  rintro ⟨cs, rfl⟩
  induction cs with
  | nil => exact .nil
  | cons x cs ih => exact wellFormed_encodeChar_append x ih

theorem toUTF8_eq_toByteArray (s : String) :
    s.toUTF8 = (s.toList.flatMap String.utf8EncodeChar).toByteArray := by
  rw [String.toUTF8_eq_toByteArray, ← List.utf8Encode, ← String.toByteArray_ofList, String.ofList_toList]

theorem wellFormed_iff_exists_toUTF8 {content : ByteArray} :
    WellFormed content.data.toList ↔ ∃ s : String, content = s.toUTF8 := by
  rw [wellFormed_iff_exists_chars]
  constructor
  · rintro ⟨cs, hcs⟩
    refine ⟨String.ofList cs, ByteArray.ext ?_⟩
    rw [toUTF8_eq_toByteArray, String.toList_ofList, List.data_toByteArray, ← hcs, Array.toArray_toList]
  · rintro ⟨s, rfl⟩
    exact ⟨s.toList, by rw [toUTF8_eq_toByteArray, List.toList_data_toByteArray]⟩

end Texts

end Utf8

theorem decoded?_eq_some_iff {content : ByteArray} {cs : List Char} :
    decoded? content = some cs ↔ content = (String.ofList cs).toUTF8 := by
  rw [decoded?, Option.map_eq_some_iff, String.fromUTF8?]
  constructor
  · rintro ⟨s, hs, rfl⟩
    split at hs
    · obtain rfl := Option.some.inj hs
      rw [String.ofList_toList]
      rfl
    · cases hs
  · intro h
    have hvalid : content.IsValidUTF8 := by
      rw [h]
      exact (String.ofList cs).isValidUTF8
    refine ⟨String.ofList cs, ?_, String.toList_ofList⟩
    rw [dif_pos hvalid]
    exact congrArg some (String.toByteArray_inj.mp h)

theorem Text.toString?_eq_some_iff {t : Text} {s : String} : t.toString? = some s ↔ t = ofString s := by
  constructor
  · intro h
    obtain ⟨cs, hcs, rfl⟩ := Option.map_eq_some_iff.mp h
    rw [eq_ofList_of_chars? hcs, ofString, String.toList_ofList]
  · rintro rfl
    exact toString?_ofString s

namespace Payload
variable {kind : BytesKind} {content : ByteArray}

theorem renderText_bytes :
    (bytes kind content).renderText
      = match decoded? content with
        | some cs => .ok (Text.ofList cs)
        | none => .error .notUtf8 := rfl

theorem renderText_bytes_eq_ok_iff {t : Text} :
    (bytes kind content).renderText = .ok t ↔ ∃ s : String, t = Text.ofString s ∧ content = s.toUTF8 := by
  rw [renderText_bytes]
  constructor
  · intro h
    split at h
    · rename_i cs hcs
      obtain rfl := Except.ok.inj h
      exact ⟨String.ofList cs, by rw [Text.ofString, String.toList_ofList], decoded?_eq_some_iff.mp hcs⟩
    · cases h
  · rintro ⟨s, rfl, hcontent⟩
    have hdecoded : decoded? content = some s.toList :=
      decoded?_eq_some_iff.mpr (by rw [hcontent, String.ofList_toList])
    rw [hdecoded]
    rfl

theorem renderText_bytes_of_not_wellFormed (h : ¬ Utf8.WellFormed content.data.toList) :
    (bytes kind content).renderText = .error .notUtf8 := by
  rw [renderText_bytes]
  split
  · rename_i cs hcs
    exact absurd (Utf8.wellFormed_iff_exists_toUTF8.mpr ⟨_, decoded?_eq_some_iff.mp hcs⟩) h
  · rfl

theorem renderBytes_of_renderText {payload : Payload} {t : Text} {s : String}
    (rendered : payload.renderText = .ok t) (string : t.toString? = some s) :
    payload.renderBytes = .ok s.toUTF8 := by
  by_cases hbytes : ∃ kind content, payload = .bytes kind content
  · obtain ⟨kind, content, rfl⟩ := hbytes
    obtain ⟨s', rfl, rfl⟩ := renderText_bytes_eq_ok_iff.mp rendered
    rw [Text.toString?_ofString] at string
    rw [Option.some.inj string]
    rfl
  · have hother : ∀ kind content, payload ≠ .bytes kind content :=
      fun kind content h => hbytes ⟨kind, content, h⟩
    rw [renderBytes_eq_bind hother, rendered]
    exact encodeText_of_string string

end Payload

namespace Event
variable {payload : Payload} {destination nullKey : Text} {position : Nat} {record : Record}

/-- A payload that is the key of an event and its value too is in the record once as text and once as the
bytes of that text, unless nothing is rendered. -/
theorem data_of_same_payload
    (h : (⟨payload, payload, destination⟩ : Event).toRecord nullKey (.int position) = .ok record) :
    record.data = record.partitionKey.toUTF8 ∨
      record.data = .empty ∧ nullKey.toString? = some record.partitionKey := by
  obtain ⟨key, hkey, hstring, hdata, -⟩ := toRecord_eq_ok_iff.mp h
  rw [partitionKey_eq] at hkey
  rw [data] at hdata
  by_cases hnull : payload.isNull
  · rw [if_pos hnull] at hkey hdata
    obtain rfl := Except.ok.inj hkey
    exact .inr ⟨(Except.ok.inj hdata).symm, hstring⟩
  · rw [if_neg hnull] at hkey hdata
    obtain ⟨t, hrendered, hstands⟩ := map_eq_ok_iff.mp hkey
    cases t with
    | nil =>
      have hbytes : payload.renderBytes = .ok "".toUTF8 :=
        Payload.renderBytes_of_renderText hrendered (Text.toString?_ofString "")
      obtain rfl : nullKey = key := hstands
      exact .inr ⟨(Except.ok.inj (hbytes.symm.trans hdata)).symm, hstring⟩
    | cons p t =>
      obtain rfl : p :: t = key := hstands
      have hbytes := Payload.renderBytes_of_renderText hrendered hstring
      exact .inl (Except.ok.inj (hdata.symm.trans hbytes))

end Event

namespace Payload

/-- Text and bytes are two views of one rendering. The bytes are the encoding of the text wherever it has one.
Bytes are the rendering of themselves, whatever they are, and have a text just when they are well-formed: the
one that they are the encoding of. So a payload that is key and value of an event is rendered once. -/
theorem renderings_agree :
    (∀ (payload : Payload) (t : Text) (s : String), payload.renderText = .ok t → t.toString? = some s →
      payload.renderBytes = .ok s.toUTF8) ∧
    (∀ (kind : BytesKind) (content : ByteArray),
      (∀ t, (bytes kind content).renderText = .ok t ↔
        ∃ s : String, t = Text.ofString s ∧ content = s.toUTF8) ∧
      ((∃ t, (bytes kind content).renderText = .ok t) ↔ Utf8.WellFormed content.data.toList) ∧
      (¬ Utf8.WellFormed content.data.toList → (bytes kind content).renderText = .error .notUtf8) ∧
      (bytes kind content).renderBytes = .ok content) ∧
    ∀ (payload : Payload) (destination nullKey : Text) (position : Nat) (record : Record),
      (⟨payload, payload, destination⟩ : Event).toRecord nullKey (.int position) = .ok record →
      record.data = record.partitionKey.toUTF8 ∨
        record.data = .empty ∧ nullKey.toString? = some record.partitionKey := by
  refine ⟨fun _ _ _ => renderBytes_of_renderText, ?_, fun _ _ _ _ _ => Event.data_of_same_payload⟩
  intro kind content
  refine ⟨fun _ => renderText_bytes_eq_ok_iff, ?_, renderText_bytes_of_not_wellFormed, rfl⟩
  rw [Utf8.wellFormed_iff_exists_toUTF8]
  constructor
  · rintro ⟨t, ht⟩
    obtain ⟨s, -, hs⟩ := renderText_bytes_eq_ok_iff.mp ht
    exact ⟨s, hs⟩
  · rintro ⟨s, hs⟩
    exact ⟨Text.ofString s, renderText_bytes_eq_ok_iff.mpr ⟨s, rfl, hs⟩⟩

/-- A character beyond the first plane is read from a view and written as it was; what is longer than it need
be, half of a surrogate pair, cut off or out of range is not read. As key and value of an event, bytes stay the
same; inside a list a character is escaped in the text and in the bytes. -/
theorem emoji_rendered_alike :
    (bytes .view "😀".toUTF8).renderText = .ok (Text.ofString "😀") ∧
    (∀ content ∈ [⟨#[0xC0, 0x80]⟩, ⟨#[0xED, 0xA0, 0x80]⟩, ⟨#[0xE2, 0x82]⟩, ⟨#[0xF4, 0x90, 0x80, 0x80]⟩],
      (bytes .fixed content).renderText = .error .notUtf8) ∧
    (sequence .list [text (Text.ofString "€")]).renderBytes = .ok "[\"\\u20ac\"]".toUTF8 ∧
    ∃ record : Record, (⟨bytes .mutable "😀".toUTF8, bytes .mutable "😀".toUTF8, []⟩ : Event).toRecord
        (Text.ofString "default") (.int (0 : Nat)) = .ok record ∧
      (record.data = record.partitionKey.toUTF8 ∨
        record.data = .empty ∧ (Text.ofString "default").toString? = some record.partitionKey) := by
  obtain ⟨hlist, hbytes, hrecord⟩ := renderings_agree
  have hread (kind : BytesKind) : (bytes kind "😀".toUTF8).renderText = .ok (Text.ofString "😀") :=
    ((hbytes kind _).1 _).mpr ⟨"😀", rfl, rfl⟩
  refine ⟨hread .view, ?_, ?_, ?_⟩
  · simp only [List.forall_mem_cons]
    refine ⟨(hbytes .fixed _).2.2.1 ?_, (hbytes .fixed _).2.2.1 ?_, (hbytes .fixed _).2.2.1 ?_,
      (hbytes .fixed _).2.2.1 ?_, List.forall_mem_nil _⟩
    · rintro (_ | lead | lead)
      · exact absurd lead (by decide)
      · exact absurd lead (by decide)
    · rintro (_ | lead | lead | ⟨-, -, -, -, whole⟩)
      · exact absurd lead (by decide)
      · exact absurd lead (by decide)
      · exact absurd (whole rfl) (by decide)
    · rintro (_ | lead | lead)
      · exact absurd lead (by decide)
      · exact absurd lead (by decide)
    · rintro (_ | lead | lead | lead | ⟨-, -, -, -, -, inRange⟩)
      · exact absurd lead (by decide)
      · exact absurd lead (by decide)
      · exact absurd lead (by decide)
      · exact absurd (inRange rfl) (by decide)
  · exact hlist _ (Text.ofString "[\"\\u20ac\"]") _ rfl (Text.toString?_ofString _)
  · let record : Record := ⟨"😀", by decide, "😀".toUTF8, 0⟩
    have hconverted : (⟨bytes .mutable "😀".toUTF8, bytes .mutable "😀".toUTF8, []⟩ : Event).toRecord
        (Text.ofString "default") (.int (0 : Nat)) = .ok record := by
      refine Event.toRecord_eq_ok_iff.mpr ⟨Text.ofString "😀", ?_, Text.toString?_ofString _, rfl, rfl⟩
      rw [Event.partitionKey_eq]
      exact map_eq_ok_iff.mpr ⟨_, hread .mutable, rfl⟩
    exact ⟨record, hconverted, hrecord _ _ _ _ _ hconverted⟩

end Payload

end EventDelivery

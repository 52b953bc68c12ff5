import EventDelivery.Feed
import EventDelivery.Proofs.Rendered
import EventDelivery.Proofs.Spelling

/-! Events as lines. An event that is written as a compact document is read back from that line as the same
event. That holds of strings made of characters: half of a surrogate pair can be written, but not read. It holds of
negative integers as far as the release of the reader takes their sign. -/

namespace EventDelivery
set_option autoImplicit false

namespace Json

/-- A document that a line carries unchanged as a part of an event, which takes one level itself. -/
structure Carried [Release] (document : Json) : Prop where
  fits : document.Fits (depthLimit - 1)
  legible : document.Legible

theorem Carried.read?_spelling [Release] {document : Json} (carried : document.Carried) :
    read? document.spelling = some document :=
  Json.read?_spelling (carried.fits.mono (Nat.sub_le _ _)) carried.legible

end Json

namespace Event

def toPayload (event : Event) : Payload :=
  .mapping false [(.text (Text.ofString "key"), event.key), (.text (Text.ofString "value"), event.value),
    (.text (Text.ofString "destination"), .text event.destination)]

def ofDocuments (key value : Json) (destination : String) : Event :=
  ⟨key.toPayload, value.toPayload, Text.ofString destination⟩

def document (key value : Json) (destination : String) : Json :=
  .object [("key", key), ("value", value), ("destination", .string destination)]

theorem ofJson_document (key value : Json) (destination : String) :
    ofJson (document key value destination) = .ok (ofDocuments key value destination) := rfl

section Documents
variable [Json.Release] {key value : Json} (destination : String)

theorem fits_document (carriedKey : key.Carried) (carriedValue : value.Carried) :
    (document key value destination).Fits Json.depthLimit := by
  refine .object (by decide : ["key", "value", "destination"].Nodup) ?_
  simp only [List.forall_mem_cons]
  exact ⟨carriedKey.fits, carriedValue.fits, .string destination, List.forall_mem_nil _⟩

theorem legible_document (carriedKey : key.Carried) (carriedValue : value.Carried) :
    (document key value destination).Legible := by
  refine .object ?_
  simp only [List.forall_mem_cons]
  exact ⟨carriedKey.legible, carriedValue.legible, .string destination, List.forall_mem_nil _⟩

theorem readEvents_spelling (carriedKey : key.Carried) (carriedValue : value.Carried) :
    readEvents [String.ofList (document key value destination).spelling]
      = ⟨[ofDocuments key value destination], none⟩ := by
  have hread := Json.read?_spelling (fits_document destination carriedKey carriedValue)
    (legible_document destination carriedKey carriedValue)
  have hblank : blankLine (String.ofList (document key value destination).spelling) = false := by
    rw [blankLine, String.toList_ofList]
    rfl
  have hline : ofLine (String.ofList (document key value destination).spelling)
      = .ok (ofDocuments key value destination) := by
    rw [ofLine, String.toList_ofList, hread]
    exact ofJson_document key value destination
  simp only [readEvents, Feed.readFrom, readLine, hblank, hline, Bool.false_eq_true, if_false]
  rfl

end Documents

/-- An event is read back from the line that it is written as, whatever legible documents it carries and
whatever characters its destination has. So no two arrays or objects that it may carry are written
alike. -/
theorem written_is_read_back [Json.Release] :
    (∀ (key value : Json) (destination : String), key.Carried → value.Carried →
      ∃ line : String,
        (ofDocuments key value destination).toPayload.renderText = .ok (Text.ofString line)
          ∧ readEvents [line] = ⟨[ofDocuments key value destination], none⟩)
    ∧ ∀ a b : Json, a.Carried → b.Carried → a.toPayload.isContainer → b.toPayload.isContainer →
        a.toPayload.renderText = b.toPayload.renderText → a = b := by
  constructor
  · intro key value destination carriedKey carriedValue
    refine ⟨String.ofList (document key value destination).spelling, ?_,
      readEvents_spelling destination carriedKey carriedValue⟩
    rw [Text.ofString, String.toList_ofList]
    exact Json.renderText_of_isContainer (fits_document destination carriedKey carriedValue) rfl
  · intro a b carriedA carriedB containerA containerB heq
    rw [Json.renderText_of_isContainer carriedA.fits containerA,
      Json.renderText_of_isContainer carriedB.fits containerB] at heq
    have hspelling : a.spelling = b.spelling := by
      have hchars := congrArg Text.chars? (Except.ok.inj heq)
      rw [Text.chars?_ofList, Text.chars?_ofList] at hchars
      exact Option.some.inj hchars
    have hread := carriedA.read?_spelling
    rw [hspelling, carriedB.read?_spelling] at hread
    exact (Option.some.inj hread).symm

/-- Escapes of every kind, a negative integer, and containers of nothing inside others. The key and the value
are not written alike. -/
theorem escaped_is_read_back :
    let key : Json := .array [.string "\"\\/\x08\n\x01\x7fé😀", .int (-120), .bool true]
    let value : Json := .object [("b", .array []), ("", .null), ("a", .array [.object [], .int 0])]
    key.Carried ∧ value.Carried ∧
    (∃ line : String,
      (ofDocuments key value "orders\n").toPayload.renderText = .ok (Text.ofString line)
        ∧ readEvents [line] = ⟨[ofDocuments key value "orders\n"], none⟩) ∧
    key.toPayload.renderText ≠ value.toPayload.renderText := by
  intro key value
  have hsmall (n : Int) (h : n.natAbs < 10 ^ 3) : withinDigitLimit n :=
    withinDigitLimit_iff.mpr (Nat.lt_of_lt_of_le h (Nat.pow_le_pow_right (by decide) (by decide)))
  have hreadable (n : Int) (h : n.natAbs < 10 ^ 3) : Json.Readable n :=
    ⟨hsmall n h, fun _ _ => Nat.lt_of_lt_of_le h (Nat.pow_le_pow_right (by decide) (by decide))⟩
  have hkey : key.Carried := by
    constructor
    · refine .array ?_
      simp only [List.forall_mem_cons]
      exact ⟨.string _, .int (hsmall _ (by decide)), .bool true, List.forall_mem_nil _⟩
    · refine .array ?_
      simp only [List.forall_mem_cons]
      exact ⟨.string _, .int (hreadable _ (by decide)), .bool true, List.forall_mem_nil _⟩
  have hvalue : value.Carried := by
    constructor
    · refine .object (by decide : ["b", "", "a"].Nodup) ?_
      simp only [List.forall_mem_cons]
      refine ⟨.emptyArray, .null, .array ?_, List.forall_mem_nil _⟩
      simp only [List.forall_mem_cons]
      exact ⟨.emptyObject, .int (hsmall _ (by decide)), List.forall_mem_nil _⟩
    · refine .object ?_
      simp only [List.forall_mem_cons]
      refine ⟨.array (List.forall_mem_nil _), .null, .array ?_, List.forall_mem_nil _⟩
      simp only [List.forall_mem_cons]
      exact ⟨.object (List.forall_mem_nil _), .int (hreadable _ (by decide)), List.forall_mem_nil _⟩
  refine ⟨hkey, hvalue, written_is_read_back.1 key value "orders\n" hkey hvalue, ?_⟩
  intro halike
  have hsame : key = value := written_is_read_back.2 key value hkey hvalue rfl rfl halike
  exact nomatch hsame

/-- Half of a surrogate pair in the destination can be written, but not read. -/
theorem not_written_is_read_back :
    ¬ ∀ (key value : Json) (destination : Text), key.Carried → value.Carried →
        ∃ line : String,
          (⟨key.toPayload, value.toPayload, destination⟩ : Event).toPayload.renderText
              = .ok (Text.ofString line)
            ∧ readEvents [line] = ⟨[⟨key.toPayload, value.toPayload, destination⟩], none⟩ := by
  intro h
  obtain ⟨line, hrender, hread⟩ := h .null .null [.lone 0] ⟨.null, .null⟩ ⟨.null, .null⟩
  have hline : Text.ofString
      "\x7b\"key\":null,\"value\":null,\"destination\":\"\\ud800\"\x7d" = Text.ofString line :=
    Except.ok.inj hrender
  rw [← Text.ofString_injective hline] at hread
  have hrefused : (readEvents ["\x7b\"key\":null,\"value\":null,\"destination\":\"\\ud800\"\x7d"]).events = [] :=
    rfl
  rw [hread] at hrefused
  cases hrefused

end Event

end EventDelivery

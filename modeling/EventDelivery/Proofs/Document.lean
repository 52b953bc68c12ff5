import EventDelivery.Json.Reader
import EventDelivery.Payload.Compact
import EventDelivery.Proofs.Digits
import Mathlib.Data.List.Induction

/-! Documents within the limits of a reader: integers have at most so many digits, arrays and objects that
hold something are nested at most so deep, and no object has two members of one name. Such a document has a
compact spelling, and that is how its payload is written. -/

namespace EventDelivery.Json
set_option autoImplicit false

/-- The document is within the limits where `room` levels of arrays and objects are left. What holds
nothing takes no level. -/
inductive Fits : Nat → Json → Prop where
  | null {room : Nat} : Fits room .null
  | bool {room : Nat} (b : Bool) : Fits room (.bool b)
  | int {room : Nat} {n : Int} (within : withinDigitLimit n) : Fits room (.int n)
  | float {room : Nat} (x : Binary64) : Fits room (.float x)
  | string {room : Nat} (s : String) : Fits room (.string s)
  | emptyArray {room : Nat} : Fits room (.array [])
  | emptyObject {room : Nat} : Fits room (.object [])
  | array {room : Nat} {items : List Json} (each : ∀ item ∈ items, Fits room item) :
      Fits (room + 1) (.array items)
  | object {room : Nat} {members : List (String × Json)} (distinct : (members.map (·.1)).Nodup)
      (each : ∀ m ∈ members, Fits room m.2) : Fits (room + 1) (.object members)

theorem Fits.mono {room room' : Nat} {document : Json} (fits : document.Fits room) (h : room ≤ room') :
    document.Fits room' := by
  induction fits generalizing room' with
  | null => exact .null
  | bool b => exact .bool b
  | int within => exact .int within
  | float x => exact .float x
  | string s => exact .string s
  | emptyArray => exact .emptyArray
  | emptyObject => exact .emptyObject
  | array _ ih =>
    obtain ⟨inner, rfl⟩ := Nat.exists_eq_add_one.mpr (Nat.lt_of_lt_of_le (Nat.succ_pos _) h)
    exact .array fun item hitem => ih item hitem (Nat.le_of_succ_le_succ h)
  | object distinct _ ih =>
    obtain ⟨inner, rfl⟩ := Nat.exists_eq_add_one.mpr (Nat.lt_of_lt_of_le (Nat.succ_pos _) h)
    exact .object distinct fun m hm => ih m hm (Nat.le_of_succ_le_succ h)

/-- The document holds no doubles, and no integer that the reader would not take for its sign. -/
inductive Legible [Release] : Json → Prop where
  | null : Legible .null
  | bool (b : Bool) : Legible (.bool b)
  | int {n : Int} (readable : Readable n) : Legible (.int n)
  | string (s : String) : Legible (.string s)
  | array {items : List Json} (each : ∀ item ∈ items, Legible item) : Legible (.array items)
  | object {members : List (String × Json)} (each : ∀ m ∈ members, Legible m.2) : Legible (.object members)

mutual

def spelling : Json → List Char
  | null => "null".toList
  | bool true => "true".toList
  | bool false => "false".toList
  | int n => integerDigits n
  | float x => FloatForm.compact.write x
  | string s => quotedAscii (Text.ofString s)
  | array items => bracketed '[' (spellings items) ']'
  | object members => bracketed '\x7b' (memberSpellings members) '\x7d'

def spellings : List Json → List (List Char)
  | [] => []
  | item :: items => spelling item :: spellings items

def memberSpellings : List (String × Json) → List (List Char)
  | [] => []
  | (name, value) :: members =>
    (quotedAscii (Text.ofString name) ++ ':' :: spelling value) :: memberSpellings members

end

section Payloads
open Payload (compact compacts entryCompacts)

theorem compacts_toPayloads {items : List Json}
    (each : ∀ item ∈ items, compact item.toPayload = .ok item.spelling) :
    compacts (toPayloads items) = .ok (spellings items) := by
  induction items with
  | nil => rfl
  | cons item items ih =>
    have hitem := each item List.mem_cons_self
    have hitems := ih fun other hother => each other (List.mem_cons_of_mem item hother)
    simp only [toPayloads, compacts, hitem, hitems, spellings]
    rfl

theorem entryCompacts_toEntries {members : List (String × Json)}
    (each : ∀ m ∈ members, compact m.2.toPayload = .ok m.2.spelling) :
    entryCompacts (toEntries members) = .ok (memberSpellings members) := by
  induction members with
  | nil => rfl
  | cons m members ih =>
    obtain ⟨name, value⟩ := m
    have hvalue := each (name, value) List.mem_cons_self
    have hmembers := ih fun other hother => each other (List.mem_cons_of_mem _ hother)
    simp only [toEntries, entryCompacts, hvalue, hmembers, memberSpellings]
    rfl

/-- A document within the limits is written as it is spelled. -/
theorem compact_toPayload {room : Nat} {document : Json} (fits : document.Fits room) :
    compact document.toPayload = .ok document.spelling := by
  induction fits with
  | null | float | string | emptyArray | emptyObject => rfl
  | bool b => cases b <;> rfl
  | int within => simp only [toPayload, compact, within, if_true, spelling]
  | array _ ih => simp only [toPayload, compact, compacts_toPayloads ih, Except.map, spelling]
  | object _ _ ih => simp only [toPayload, compact, entryCompacts_toEntries ih, Except.map, spelling]

end Payloads

section Members
theorem mem_put {members : List (String × Json)} {name : String} {value : Json} {m : String × Json}
    (h : m ∈ put members name value) : m ∈ members ∨ m = (name, value) := by
  induction members with
  | nil => exact .inr (List.mem_singleton.mp h)
  | cons first members ih =>
    obtain ⟨name', value'⟩ := first
    rw [put] at h
    split at h
    · rcases List.mem_cons.mp h with rfl | h
      · exact .inr rfl
      · exact .inl (List.mem_cons_of_mem _ h)
    · rcases List.mem_cons.mp h with rfl | h
      · exact .inl List.mem_cons_self
      · exact (ih h).imp_left (List.mem_cons_of_mem _)

theorem nodup_put {members : List (String × Json)} (h : (members.map (·.1)).Nodup) (name : String)
    (value : Json) : ((put members name value).map (·.1)).Nodup := by
  induction members with
  | nil => simp [put]
  | cons first members ih =>
    obtain ⟨name', value'⟩ := first
    obtain ⟨hnew, hrest⟩ := List.nodup_cons.mp h
    rw [put]
    split
    · rename_i heq
      subst heq
      exact h
    · rename_i hne
      refine List.nodup_cons.mpr ⟨?_, ih hrest⟩
      intro hmem
      obtain ⟨m, hm, hname⟩ := List.mem_map.mp hmem
      rcases mem_put hm with hm | rfl
      · exact hnew (hname ▸ List.mem_map_of_mem hm)
      · exact hne hname.symm

theorem membersOf_concat (pairs : List (String × Json)) (name : String) (value : Json) :
    membersOf (pairs ++ [(name, value)]) = put (membersOf pairs) name value := by
  rw [membersOf, List.foldl_append]
  rfl

theorem nodup_membersOf (pairs : List (String × Json)) : ((membersOf pairs).map (·.1)).Nodup := by
  induction pairs using List.reverseRecOn with
  | nil => exact List.nodup_nil
  | append_singleton pairs last ih =>
    rw [membersOf_concat]
    exact nodup_put ih last.1 last.2

theorem mem_of_mem_membersOf {pairs : List (String × Json)} {m : String × Json} (h : m ∈ membersOf pairs) :
    m ∈ pairs := by
  induction pairs using List.reverseRecOn with
  | nil => cases h
  | append_singleton pairs last ih =>
    rw [membersOf_concat] at h
    rcases mem_put h with h | rfl
    · exact List.mem_append_left _ (ih h)
    · simp

theorem membersOf_of_nodup {pairs : List (String × Json)} (distinct : (pairs.map (·.1)).Nodup) :
    membersOf pairs = pairs := by
  induction pairs using List.reverseRecOn with
  | nil => rfl
  | append_singleton pairs last ih =>
    rw [List.map_append, List.nodup_append] at distinct
    obtain ⟨hpairs, -, hdisjoint⟩ := distinct
    rw [membersOf_concat, ih hpairs]
    exact put_of_forall_ne last.2 fun m hm =>
      hdisjoint m.1 (List.mem_map_of_mem hm) last.1 (List.mem_singleton.mpr rfl)

end Members

end EventDelivery.Json

import Mathlib.Algebra.GroupWithZero.Nat
import EventDelivery.Proofs.Accepted
import EventDelivery.Proofs.Delivery

/-! What is sent of an event: its entry, which is that of its record wherever the record stands. Each window of a
batch takes one request, and so a group takes as few requests as its length allows. -/

namespace EventDelivery
set_option autoImplicit false

section Entries
variable {nullKey : Text} {event : Event}

/-- The event has this entry, wherever its record stands. -/
def Event.Gives (nullKey : Text) (event : Event) (entry : Entry) : Prop :=
  ∀ position : Nat, ∃ record, event.toRecord nullKey (.int position) = .ok record ∧ record.entry = entry

theorem Event.gives_of_toRecord {i : Nat} {record : Record} (h : event.toRecord nullKey (.int i) = .ok record) :
    event.Gives nullKey record.entry := by
  intro position
  obtain ⟨key, hkey, hstring, hdata, -⟩ := toRecord_eq_ok_iff.mp h
  refine ⟨{ record with position := position }, ?_, rfl⟩
  exact toRecord_eq_ok_iff.mpr ⟨key, hkey, hstring, hdata, rfl⟩

theorem Event.not_gives_of_toRecord {i : Nat} {failure : Failure}
    (h : event.toRecord nullKey (.int i) = .error failure) (entry : Entry) : ¬ event.Gives nullKey entry := by
  intro hgives
  obtain ⟨record, hrecord, -⟩ := hgives i
  rw [h] at hrecord
  cases hrecord

theorem gives_of_toRecords {window : List Event} {records : List Record}
    (h : toRecords nullKey window = .ok records) :
    List.Forall₂ (Event.Gives nullKey) window (records.map Record.entry) := by
  rw [List.forall₂_map_right_iff, ← List.zipIdx_map_fst 0 window, List.forall₂_map_left_iff]
  apply (mapM_eq_ok_iff.mp h).imp
  intro pair record hrecord
  exact Event.gives_of_toRecord hrecord

/-- An event of lines has an entry, unless the null key has to stand in for its key and is no string. -/
theorem Event.gives_iff_of_mem_readEvents {lines : List String} (nonempty : nullKey ≠ [])
    (h : event ∈ (readEvents lines).events) :
    (∃ entry, event.Gives nullKey entry) ↔
      (event.partitionKey nullKey = .ok nullKey → nullKey.toString?.isSome) := by
  constructor
  · rintro ⟨entry, hgives⟩ hnull
    obtain ⟨record, hrecord, -⟩ := hgives 0
    obtain ⟨key, hkey, hstring, -⟩ := toRecord_eq_ok_iff.mp hrecord
    rw [hnull] at hkey
    obtain rfl := Except.ok.inj hkey
    rw [hstring]
    rfl
  · intro hstring
    by_cases hnull : event.partitionKey nullKey = .ok nullKey
    · obtain ⟨s, hs⟩ := Option.isSome_iff_exists.mp (hstring hnull)
      obtain ⟨record, hrecord⟩ := exists_toRecord_of_mem_readEvents h nonempty hs 0
      exact ⟨record.entry, gives_of_toRecord hrecord⟩
    · -- the key is its own, so any other null key gives the same record
      have hplain := Text.toString?_ofString "default"
      obtain ⟨record, hrecord⟩ := exists_toRecord_of_mem_readEvents h (by decide) hplain 0
      obtain ⟨key, hkey, hkeyed⟩ := toRecord_eq_ok_iff.mp hrecord
      rw [partitionKey_of_ne hnull] at hkey
      exact ⟨record.entry, gives_of_toRecord (toRecord_eq_ok_iff.mpr ⟨key, hkey, hkeyed⟩)⟩

end Entries

structure Carries (nullKey stream : Text) (window : List Event) (request : Request) : Prop where
  stream_eq : request.stream = stream
  entries : List.Forall₂ (Event.Gives nullKey) window request.entries

/-- Each window of a batch is carried by one request. -/
def Packed (nullKey : Text) (naming : Text → Text) (events : List Event) (requests : List Request) : Prop :=
  List.Forall₂ (Carries nullKey (naming (destinationOf events))) (windows windowSize windowSize_pos events) requests

/-- What the requests of a run hold: the entries of the events, in order. Each group goes to the stream of its
first event, in as few requests as its windows are. -/
structure Shipped (nullKey : Text) (naming : Text → Text) (size : Nat) (positive : 0 < size) (events : List Event)
    (requests : List Request) : Prop where
  entries : List.Forall₂ (Event.Gives nullKey) events (requests.flatMap (·.entries))
  number : requests.length
    = ((windows size positive events).map fun group => (group.length + 499) / 500).sum
  grouped : ∃ parts : List (List Request), requests = parts.flatten ∧
    List.Forall₂ (fun group part => List.Forall₂ (Event.Gives nullKey) group (part.flatMap (·.entries)) ∧
      ∀ request ∈ part, request.stream = naming (destinationOf group) ∧ 1 ≤ request.entries.length ∧
        request.entries.length ≤ min size 500) (windows size positive events) parts

section Parts
variable {nullKey : Text} {naming : Text → Text} {group events : List Event} {part requests : List Request}

theorem Packed.entries (h : Packed nullKey naming group part) :
    List.Forall₂ (Event.Gives nullKey) group (part.flatMap (·.entries)) := by
  rw [← flatten_windows windowSize windowSize_pos group, List.flatMap_def]
  apply List.rel_flatten
  rw [List.forall₂_map_right_iff]
  exact h.imp fun _ _ => Carries.entries

theorem Packed.length_eq (h : Packed nullKey naming group part) : part.length = (group.length + 499) / 500 := by
  rw [← List.Forall₂.length_eq h, length_windows]
  rfl

theorem Packed.request {request : Request} (h : Packed nullKey naming group part) (hrequest : request ∈ part) :
    request.stream = naming (destinationOf group) ∧ 1 ≤ request.entries.length ∧
      request.entries.length ≤ min group.length 500 := by
  obtain ⟨window, hwindow, hcarries⟩ := exists_mem_of_forall₂ h hrequest
  obtain ⟨hne, hle⟩ := ne_nil_of_mem_windows hwindow
  have hwithin : window.length ≤ group.length := by
    conv_rhs => rw [← flatten_windows windowSize windowSize_pos group]
    exact (List.sublist_flatten_of_mem hwindow).length_le
  rw [← hcarries.entries.length_eq]
  exact ⟨hcarries.stream_eq, List.length_pos_iff.mpr hne, Nat.le_min.mpr ⟨hwithin, hle⟩⟩

theorem shipped_of_packed {size : Nat} {positive : 0 < size} {parts : List (List Request)}
    (h : List.Forall₂ (Packed nullKey naming) (windows size positive events) parts) :
    Shipped nullKey naming size positive events parts.flatten := by
  constructor
  · have hentries : parts.flatten.flatMap (·.entries)
        = (parts.map fun part => part.flatMap (·.entries)).flatten := by
      rw [List.flatMap_def, List.map_flatten, List.flatten_flatten, List.map_map]
      rfl
    rw [hentries]
    conv_lhs => rw [← flatten_windows size positive events]
    apply List.rel_flatten
    rw [List.forall₂_map_right_iff]
    exact h.imp fun _ _ => Packed.entries
  · have hlengths : parts.map List.length
        = (windows size positive events).map fun group => (group.length + 499) / 500 := by
      rw [← List.forall₂_eq_eq_eq, List.forall₂_map_left_iff, List.forall₂_map_right_iff]
      exact (h.imp fun _ _ => Packed.length_eq).flip
    rw [List.length_flatten, hlengths]
  · refine ⟨parts, rfl, ?_⟩
    apply List.forall₂_iff_zip.mpr
    refine ⟨h.length_eq, ?_⟩
    intro group part hzip
    have hpacked : Packed nullKey naming group part := List.forall₂_zip h hzip
    obtain ⟨-, hle⟩ := ne_nil_of_mem_windows (List.of_mem_zip hzip).1
    refine ⟨hpacked.entries, ?_⟩
    intro request hrequest
    obtain ⟨hstream, hpositive, hwithin⟩ := hpacked.request hrequest
    exact ⟨hstream, hpositive, by omega⟩

end Parts

end EventDelivery

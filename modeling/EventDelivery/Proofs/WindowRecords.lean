import EventDelivery.Record
import EventDelivery.Window
import EventDelivery.Proofs.Except

/-! The windows of a batch and the records of a window: no window is empty, and each record tells by its
position which event of the window it was made from. -/

namespace EventDelivery
set_option autoImplicit false

theorem windowSize_pos : 0 < windowSize := by decide

theorem ne_nil_of_mem_windows {α : Type} {size : Nat} {positive : 0 < size} {items window : List α}
    (h : window ∈ windows size positive items) : window ≠ [] ∧ window.length ≤ size := by
  induction items using windows.induct size positive with
  | case1 =>
    rw [windows_nil] at h
    cases h
  | case2 item rest ih =>
    rw [windows_of_ne_nil _ _ (List.cons_ne_nil item rest)] at h
    rcases List.mem_cons.mp h with rfl | h
    · constructor
      · rw [← List.length_pos_iff, List.length_take, List.length_cons]
        omega
      · rw [List.length_take]
        omega
    · exact ih h

theorem windows_of_length_le {α : Type} {size : Nat} {positive : 0 < size} {items : List α}
    (nonempty : items ≠ []) (h : items.length ≤ size) : windows size positive items = [items] := by
  rw [windows_of_ne_nil _ _ nonempty, List.take_of_length_le h, List.drop_eq_nil_of_le h, windows_nil]

theorem windows_append_of_length_eq {α : Type} {size : Nat} {positive : 0 < size} {group : List α}
    (h : group.length = size) (items : List α) :
    windows size positive (group ++ items) = group :: windows size positive items := by
  have hne : group ++ items ≠ [] := by
    intro hnil
    rw [(List.append_eq_nil_iff.mp hnil).1, List.length_nil] at h
    omega
  rw [windows_of_ne_nil _ _ hne, List.take_left' h, List.drop_left' h]

theorem length_windows {α : Type} {size : Nat} {positive : 0 < size} (items : List α) :
    (windows size positive items).length = (items.length + (size - 1)) / size := by
  induction items using windows.induct size positive with
  | case1 =>
    rw [windows_nil, List.length_nil, List.length_nil, Nat.zero_add]
    exact (Nat.div_eq_of_lt (by omega)).symm
  | case2 item items ih =>
    rw [windows_of_ne_nil _ _ (List.cons_ne_nil item items), List.length_cons, ih, List.length_drop]
    have hcons : (item :: items).length = items.length + 1 := rfl
    by_cases hshort : (item :: items).length ≤ size
    · have hrest : (item :: items).length - size + (size - 1) < size := by omega
      have hwhole : (item :: items).length + (size - 1) = size + ((item :: items).length - 1) := by omega
      rw [Nat.div_eq_of_lt hrest, hwhole, Nat.add_div_left _ positive, Nat.div_eq_of_lt (by omega)]
    · have hwhole : (item :: items).length + (size - 1)
          = (item :: items).length - size + (size - 1) + size := by omega
      rw [hwhole, Nat.add_div_right _ positive]

theorem Record.position_of_ofFields {key : Text} {data : ByteArray} {i : Nat} {record : Record}
    (h : ofFields [("partition_key", .text key), ("data", .bytes .fixed data), ("position", .int i)]
      = .ok record) : record.position = i := by
  simp only [ofFields] at h
  split at h
  · rename_i position _ _ hposition
    obtain rfl := Except.ok.inj h
    have hread : Field.natural (.int i) = .ok position := hposition
    obtain ⟨n, hn, hnatural⟩ := bind_eq_ok_iff.mp hread
    obtain rfl := Except.ok.inj hn
    rw [if_neg (by omega)] at hnatural
    exact (Except.ok.inj hnatural).symm
  · cases h

theorem Event.position_of_toRecord {nullKey : Text} {event : Event} {i : Nat} {record : Record}
    (h : event.toRecord nullKey (.int i) = .ok record) : record.position = i := by
  obtain ⟨key, -, h⟩ := bind_eq_ok_iff.mp h
  obtain ⟨data, -, h⟩ := bind_eq_ok_iff.mp h
  exact Record.position_of_ofFields (mapError_eq_ok_iff.mp h)

section Windows
variable {nullKey : Text} {window : List Event} {records : List Record}

theorem length_of_toRecords (h : toRecords nullKey window = .ok records) :
    records.length = window.length := by
  rw [← (mapM_eq_ok_iff.mp h).length_eq, List.length_zipIdx]

theorem toRecord_of_toRecords (h : toRecords nullKey window = .ok records) {i : Nat} {record : Record}
    (hi : records[i]? = some record) :
    ∃ event, window[i]? = some event ∧ event.toRecord nullKey (.int i) = .ok record := by
  obtain ⟨hlt, hget⟩ := List.getElem?_eq_some_iff.mp hi
  have hlt' : i < window.length := length_of_toRecords h ▸ hlt
  have hpair := (mapM_eq_ok_iff.mp h).get (by rwa [List.length_zipIdx]) hlt
  refine ⟨window[i], List.getElem?_eq_getElem hlt', ?_⟩
  simpa [hget] using hpair

theorem position_of_toRecords (h : toRecords nullKey window = .ok records) {i : Nat} {record : Record}
    (hi : records[i]? = some record) : record.position = i := by
  obtain ⟨event, -, hevent⟩ := toRecord_of_toRecords h hi
  exact Event.position_of_toRecord hevent

/-- No record is twice in a window, whatever keys and values its events share. -/
theorem nodup_of_toRecords (h : toRecords nullKey window = .ok records) : records.Nodup := by
  rw [List.nodup_iff_pairwise_ne, List.pairwise_iff_getElem]
  intro i j hi hj hij heq
  have hpositioni := position_of_toRecords h (List.getElem?_eq_getElem hi)
  have hpositionj := position_of_toRecords h (List.getElem?_eq_getElem hj)
  rw [heq] at hpositioni
  omega

end Windows

end EventDelivery

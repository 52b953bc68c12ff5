import EventDelivery.Proofs.Feed

/-! There is one way to cut a list into groups of a size. Windows that are taken at their offsets, and groups that
are filled as items come, are both cut that way, and so they are the same. -/

namespace EventDelivery
set_option autoImplicit false

variable {α : Type}

/-- Parts of a list in order, none of them empty. Each is of the size but the last one, which may be shorter. -/
structure Cuts (size : Nat) (items : List α) (parts : List (List α)) : Prop where
  flatten : parts.flatten = items
  nonempty : ∀ part ∈ parts, part ≠ []
  full : ∀ part ∈ parts.dropLast, part.length = size
  bounded : ∀ part ∈ parts, part.length ≤ size

section Windows
variable {size : Nat} {positive : 0 < size} {items : List α}

theorem length_of_mem_dropLast_windows {window : List α} (h : window ∈ (windows size positive items).dropLast) :
    window.length = size := by
  induction items using windows.induct size positive with
  | case1 =>
    rw [windows_nil] at h
    cases h
  | case2 item items ih =>
    rw [windows_of_ne_nil _ _ (List.cons_ne_nil item items)] at h
    by_cases hrest : (item :: items).drop size = []
    · rw [hrest, windows_nil] at h
      cases h
    · -- another window follows
      have hmore : windows size positive ((item :: items).drop size) ≠ [] := by
        rw [windows_of_ne_nil _ _ hrest]
        exact List.cons_ne_nil _ _
      rw [List.dropLast_cons_of_ne_nil hmore] at h
      rcases List.mem_cons.mp h with rfl | h
      · rw [List.drop_eq_nil_iff] at hrest
        exact List.length_take_of_le (by omega)
      · exact ih h

theorem cuts_windows (items : List α) : Cuts size items (windows size positive items) where
  flatten := flatten_windows size positive items
  nonempty _ h := (ne_nil_of_mem_windows h).1
  full _ h := length_of_mem_dropLast_windows h
  bounded _ h := (ne_nil_of_mem_windows h).2

theorem Cuts.eq_windows {parts : List (List α)} (h : Cuts size items parts) :
    parts = windows size positive items := by
  induction parts generalizing items with
  | nil =>
    obtain rfl : [] = items := h.flatten
    exact (windows_nil size positive).symm
  | cons part rest ih =>
    obtain ⟨rfl, hnonempty, hfull, hbounded⟩ := h
    cases rest with
    | nil =>
      rw [List.flatten_singleton, windows_of_length_le (hnonempty part List.mem_cons_self)
        (hbounded part List.mem_cons_self)]
    | cons next rest =>
      rw [List.dropLast_cons_of_ne_nil (List.cons_ne_nil next rest)] at hfull
      have hrest : Cuts size (next :: rest).flatten (next :: rest) := {
        flatten := rfl
        nonempty := (List.forall_mem_cons.mp hnonempty).2
        full := (List.forall_mem_cons.mp hfull).2
        bounded := (List.forall_mem_cons.mp hbounded).2 }
      rw [List.flatten_cons, windows_append_of_length_eq (hfull part List.mem_cons_self), ← ih hrest]

theorem cuts_iff_eq_windows {parts : List (List α)} :
    Cuts size items parts ↔ parts = windows size positive items :=
  ⟨Cuts.eq_windows, fun h => h ▸ cuts_windows items⟩

theorem getElem?_windows {i : Nat} (h : i < (windows size positive items).length) :
    (windows size positive items)[i]? = some ((items.drop (i * size)).take size) := by
  induction items using windows.induct size positive generalizing i with
  | case1 =>
    rw [windows_nil] at h
    cases h
  | case2 item items ih =>
    rw [windows_of_ne_nil _ _ (List.cons_ne_nil item items)] at h ⊢
    cases i with
    | zero => rw [List.getElem?_cons_zero, Nat.zero_mul, List.drop_zero]
    | succ i =>
      rw [List.getElem?_cons_succ, ih (Nat.lt_of_succ_lt_succ h), List.drop_drop, Nat.succ_mul,
        Nat.add_comm size]

end Windows

/-- The part of a list between two offsets, of which the second may lie behind its end. -/
theorem extract_min_length (items : List α) (start stop : Nat) :
    items.extract start (min stop items.length) = (items.drop start).take (stop - start) := by
  rw [List.extract_eq_take_drop, List.take_eq_take_iff, List.length_drop]
  omega

/-- Groups that are filled as items come are the windows of all items, of those too that the first group holds. -/
theorem groupsFrom_eq_windows {size : Nat} {positive : 0 < size} {group : Array α} (short : group.size < size)
    (items : List α) : groupsFrom size group items = windows size positive (group.toList ++ items) := by
  induction items generalizing group with
  | nil =>
    rw [groupsFrom, List.append_nil]
    split
    · rename_i hempty
      rw [Array.isEmpty_iff.mp hempty, windows_nil]
    · rename_i hempty
      have hheld : group.toList ≠ [] := by simpa using hempty
      exact (windows_of_length_le hheld (Nat.le_of_lt short)).symm
  | cons item items ih =>
    have hpush : group.toList ++ item :: items = (group.push item).toList ++ items := by
      rw [Array.toList_push, List.append_assoc]
      rfl
    have hsize : (group.push item).size = group.size + 1 := Array.size_push item
    rw [groupsFrom, hpush]
    by_cases hfull : (size : Int) ≤ (group.push item).size
    · have hlength : (group.push item).toList.length = size := by
        rw [Array.length_toList]
        omega
      have hrest : groupsFrom size #[] items = windows size positive items := ih positive
      rw [if_pos hfull, windows_append_of_length_eq hlength, hrest]
    · rw [if_neg hfull, ih (by omega)]

theorem groups_eq_windows {size : Nat} (positive : 0 < size) (items : List α) :
    groups size items = windows size positive items :=
  groupsFrom_eq_windows positive items

/-- Both ways of cutting a list come to the same groups, and these are the only ones of their size. There are as few
of them as hold all items, and each one stands at its offset. -/
theorem split_eq_groups {size : Nat} (positive : 1 ≤ size) (items : List α) :
    split size items = .ok (groups size items) ∧
    (∀ parts, Cuts size items parts ↔ parts = groups size items) ∧
    (groups size items).length = (items.length + (size - 1)) / size ∧
    ∀ i < (groups size items).length,
      (groups size items)[i]? = some (items.extract (i * size) (min ((i + 1) * size) items.length)) := by
  have hgroups : groups size items = windows size positive items := groups_eq_windows positive items
  rw [hgroups]
  refine ⟨?_, fun parts => cuts_iff_eq_windows, length_windows items, ?_⟩
  · have hpositive : 0 < (size : Int).toNat := positive
    exact dif_pos hpositive
  · intro i hi
    have hsize : (i + 1) * size - i * size = size := by
      rw [Nat.succ_mul, Nat.add_sub_cancel_left]
    rw [getElem?_windows hi, extract_min_length, hsize]

theorem five_split_eq_groups :
    1 ≤ 2 ∧ split 2 [1, 2, 3, 4, 5] = .ok [[1, 2], [3, 4], [5]] ∧
    Cuts 2 [1, 2, 3, 4, 5] [[1, 2], [3, 4], [5]] ∧ ¬ Cuts 2 [1, 2, 3, 4, 5] [[1], [2, 3], [4, 5]] := by
  obtain ⟨hsplit, hcuts, -, -⟩ := @split_eq_groups Nat 2 (by decide) [1, 2, 3, 4, 5]
  have hgroups : groups 2 [1, 2, 3, 4, 5] = [[1, 2], [3, 4], [5]] := rfl
  refine ⟨by decide, hsplit.trans (congrArg Except.ok hgroups), (hcuts _).mpr hgroups.symm, ?_⟩
  intro h
  exact absurd ((hcuts _).mp h) (by decide)

end EventDelivery

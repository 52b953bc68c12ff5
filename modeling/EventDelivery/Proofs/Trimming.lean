import EventDelivery.Text.Blank

/-! Text without blanks at its ends. What was trimmed has none, so trimming it again changes nothing. -/

namespace EventDelivery
set_option autoImplicit false

section Trimming
variable {α β : Type} {p : α → Bool} {items : List α}

theorem dropWhile_eq_self (h : ∀ a ∈ items.head?, p a = false) : items.dropWhile p = items := by
  cases items with
  | nil => rfl
  | cons a items => exact List.dropWhile_cons_of_neg (by rw [h a rfl]; exact Bool.false_ne_true)

theorem eq_false_of_mem_head?_dropWhile {a : α} (h : a ∈ (items.dropWhile p).head?) : p a = false := by
  have hnot := List.head?_dropWhile_not p items
  rw [Option.mem_def.mp h] at hnot
  exact hnot

theorem trimEnds_eq_self (first : ∀ a ∈ items.head?, p a = false) (last : ∀ a ∈ items.getLast?, p a = false) :
    trimEnds p items = items := by
  have hlast : ∀ a ∈ items.reverse.head?, p a = false := by
    rw [List.head?_reverse]
    exact last
  rw [trimEnds, dropWhile_eq_self first, dropWhile_eq_self hlast, List.reverse_reverse]

theorem trimEnds_prefix (p : α → Bool) (items : List α) : trimEnds p items <+: items.dropWhile p := by
  rw [trimEnds, ← List.reverse_suffix, List.reverse_reverse]
  exact List.dropWhile_suffix p

theorem eq_false_of_mem_head?_trimEnds {a : α} (h : a ∈ (trimEnds p items).head?) : p a = false := by
  -- the second end is taken away behind the first item that stays
  obtain ⟨rest, hrest⟩ := trimEnds_prefix p items
  apply eq_false_of_mem_head?_dropWhile
  rw [← hrest, List.head?_append, Option.mem_def.mp h]
  rfl

theorem eq_false_of_mem_getLast?_trimEnds {a : α} (h : a ∈ (trimEnds p items).getLast?) : p a = false := by
  rw [trimEnds, List.getLast?_reverse] at h
  exact eq_false_of_mem_head?_dropWhile h

@[simp] theorem trimEnds_trimEnds (p : α → Bool) (items : List α) :
    trimEnds p (trimEnds p items) = trimEnds p items :=
  trimEnds_eq_self (fun _ => eq_false_of_mem_head?_trimEnds) fun _ => eq_false_of_mem_getLast?_trimEnds

theorem trimEnds_map (p : α → Bool) (f : β → α) (bs : List β) :
    trimEnds p (bs.map f) = (trimEnds (p ∘ f) bs).map f := by
  rw [trimEnds, List.dropWhile_map, ← List.map_reverse, List.dropWhile_map, ← List.map_reverse]
  rfl

end Trimming

namespace Text

@[simp] theorem strip_strip (t : Text) : t.strip.strip = t.strip := trimEnds_trimEnds CodePoint.isBlank t

/-- Text that is a string is one without the blanks at its ends. -/
theorem exists_strip_ofString (s : String) : ∃ trimmed : String, (ofString s).strip = ofString trimmed := by
  refine ⟨String.ofList (trimEnds isBlank s.toList), ?_⟩
  rw [ofString, ofString, String.toList_ofList, strip, ofList, trimEnds_map]
  rfl

end Text

end EventDelivery

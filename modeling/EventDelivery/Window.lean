import EventDelivery.Failure

/-! Cutting a list into consecutive groups of one size, the last one as long as what is left: by
offsets, where the list is known, or by filling one group after another as items come. -/

namespace EventDelivery
set_option autoImplicit false

/-- The most records of one request, and so of one window. -/
def windowSize : Nat := 500

def windows {α : Type} (size : Nat) (positive : 0 < size) (items : List α) : List (List α) :=
  match items with
  | [] => []
  | item :: rest =>
    (item :: rest).take size :: windows size positive ((item :: rest).drop size)
termination_by items.length
decreasing_by simp only [List.length_drop, List.length_cons]; omega

def split {α : Type} (size : Int) (items : List α) : Except Failure (List (List α)) :=
  if h : 0 < size.toNat then .ok (windows size.toNat h items) else .error (.refused .windowSize)

/-- The groups that are complete as items come, and the last one if anything is in it. A group is
complete when it holds at least `size` items. -/
def groupsFrom {α : Type} (size : Int) (group : Array α) : List α → List (List α)
  | [] => if group.isEmpty then [] else [group.toList]
  | item :: items =>
    let group := group.push item
    if size ≤ group.size then group.toList :: groupsFrom size #[] items
    else groupsFrom size group items

def groups {α : Type} (size : Int) (items : List α) : List (List α) := groupsFrom size #[] items

@[simp] theorem windows_nil {α : Type} (size : Nat) (positive : 0 < size) :
    windows size positive ([] : List α) = [] := by
  rw [windows]

theorem windows_of_ne_nil {α : Type} (size : Nat) (positive : 0 < size) {items : List α}
    (h : items ≠ []) :
    windows size positive items = items.take size :: windows size positive (items.drop size) := by
  cases items with
  | nil => exact absurd rfl h
  | cons item rest => rw [windows]

/-- Nothing is lost, added or moved. -/
@[simp] theorem flatten_windows {α : Type} (size : Nat) (positive : 0 < size) (items : List α) :
    (windows size positive items).flatten = items := by
  induction h : items.length using Nat.strongRecOn generalizing items with
  | ind n ih =>
    by_cases he : items = []
    · simp [he]
    · have hl : 0 < items.length := List.length_pos_iff.mpr he
      rw [windows_of_ne_nil size positive he, List.flatten_cons,
        ih (items.drop size).length (by simp only [List.length_drop]; omega) _ rfl]
      exact List.take_append_drop size items

end EventDelivery

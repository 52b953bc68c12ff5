import EventDelivery.Payload.Basic

/-! JSON documents as they are read: text is made of characters, and the members of an object have
distinct names in the order in which they first came. -/

namespace EventDelivery
set_option autoImplicit false

inductive Json where
  | null
  | bool (b : Bool)
  | int (n : Int)
  | float (x : Binary64)
  | string (s : String)
  | array (items : List Json)
  | object (members : List (String × Json))

namespace Json

instance : Inhabited Json := ⟨null⟩

/-- Sets a member: a name that is there keeps its place. -/
def put : List (String × Json) → String → Json → List (String × Json)
  | [], name, value => [(name, value)]
  | (name', value') :: members, name, value =>
    if name' = name then (name, value) :: members else (name', value') :: put members name value

/-- The members of an object that is filled from a list in order. -/
def membersOf (pairs : List (String × Json)) : List (String × Json) :=
  pairs.foldl (fun members (name, value) => put members name value) []

theorem put_of_forall_ne {members : List (String × Json)} {name : String} (value : Json)
    (h : ∀ m ∈ members, m.1 ≠ name) : put members name value = members ++ [(name, value)] := by
  induction members with
  | nil => rfl
  | cons m members ih =>
    obtain ⟨n, v⟩ := m
    have hn : n ≠ name := h (n, v) (by simp)
    simp [put, hn, ih fun m hm => h m (by simp [hm])]

mutual

def toPayload : Json → Payload
  | null => .null
  | bool b => .bool b
  | int n => .int n
  | float x => .float x
  | string s => .text (Text.ofString s)
  | array items => .sequence .list (toPayloads items)
  | object members => .mapping false (toEntries members)

def toPayloads : List Json → List Payload
  | [] => []
  | item :: items => toPayload item :: toPayloads items

def toEntries : List (String × Json) → List (Payload × Payload)
  | [] => []
  | (name, value) :: members => (.text (Text.ofString name), toPayload value) :: toEntries members

end

end Json

end EventDelivery

import EventDelivery.Proofs.Document

/-! Reading documents from their tokens. The tokens of a document within the limits are read as that
document wherever a value may stand and enough levels are left; and every document that is read is within
the limits. -/

namespace EventDelivery.Json
set_option autoImplicit false

mutual

def tokens : Json → List Token
  | string s => [.string s]
  | array items => .openArray :: (List.intercalate [.comma] (itemTokens items) ++ [.closeArray])
  | object members => .openObject :: (List.intercalate [.comma] (memberTokens members) ++ [.closeObject])
  | value => [.scalar value]

def itemTokens : List Json → List (List Token)
  | [] => []
  | item :: items => tokens item :: itemTokens items

def memberTokens : List (String × Json) → List (List Token)
  | [] => []
  | (name, value) :: members => (.string name :: .colon :: tokens value) :: memberTokens members

end

namespace Reading

theorem finish?_cons {reading next : Reading} {token : Token} (h : reading.step? token = some next)
    (rest : List Token) : reading.finish? (token :: rest) = next.finish? rest := by
  rw [finish?, h]

section Documents
variable {stack : List Frame}

theorem finish?_firstItem (deeper : stack.length < depthLimit) (item : Json) (items : List Json)
    (rest : List Token) :
    (firstItem stack).finish? (List.intercalate [.comma] (itemTokens (item :: items)) ++ rest)
      = (wantValue (.items [] :: stack)).finish?
          (List.intercalate [.comma] (itemTokens (item :: items)) ++ rest) := by
  obtain ⟨more, hmore⟩ : ∃ more,
      List.intercalate [.comma] (itemTokens (item :: items)) = item.tokens ++ more := by
    cases items with
    | nil => exact ⟨[], by simp [itemTokens, List.intercalate_singleton]⟩
    | cons next items => exact ⟨_, by rw [itemTokens, itemTokens, List.intercalate_cons_cons, List.append_assoc]⟩
  rw [hmore]
  cases item <;> simp only [tokens, List.cons_append, List.nil_append, finish?, step?, if_pos deeper]

theorem finish?_firstName (deeper : stack.length < depthLimit) (m : String × Json)
    (members : List (String × Json)) (rest : List Token) :
    (firstName stack).finish? (List.intercalate [.comma] (memberTokens (m :: members)) ++ rest)
      = (wantName [] stack).finish?
          (List.intercalate [.comma] (memberTokens (m :: members)) ++ rest) := by
  obtain ⟨more, hmore⟩ : ∃ more,
      List.intercalate [.comma] (memberTokens (m :: members)) = .string m.1 :: more := by
    cases members with
    | nil => exact ⟨_, by rw [memberTokens, memberTokens, List.intercalate_singleton]⟩
    | cons next members => exact ⟨_, by rw [memberTokens, memberTokens, List.intercalate_cons_cons]; rfl⟩
  rw [hmore, List.cons_append]
  simp only [finish?, step?, if_pos deeper]

/-- The document is read wherever a value may stand, if the levels that are left suffice for it. -/
def Reads (room : Nat) (document : Json) : Prop :=
  ∀ (stack : List Frame) (rest : List Token), stack.length + room ≤ depthLimit →
    (wantValue stack).finish? (document.tokens ++ rest) = (after document stack).finish? rest

theorem finish?_items {room : Nat} {item : Json} {items : List Json}
    (each : ∀ i ∈ item :: items, Reads room i) (deeper : stack.length + room < depthLimit)
    (done : List Json) (rest : List Token) :
    (wantValue (.items done :: stack)).finish?
        (List.intercalate [.comma] (itemTokens (item :: items)) ++ .closeArray :: rest)
      = (after (.array (done.reverse ++ item :: items)) stack).finish? rest := by
  have hroom : (Frame.items done :: stack).length + room ≤ depthLimit := by
    rw [List.length_cons]
    omega
  have hitem := each item List.mem_cons_self
  induction items generalizing item done with
  | nil =>
    rw [itemTokens, itemTokens, List.intercalate_singleton, hitem _ _ hroom, finish?_cons rfl,
      List.reverse_cons]
  | cons next items ih =>
    rw [itemTokens, itemTokens, List.intercalate_cons_cons, List.append_assoc, List.append_assoc,
      hitem _ _ hroom, List.singleton_append, finish?_cons rfl, ← itemTokens]
    rw [ih (fun i hi => each i (List.mem_cons_of_mem item hi)) (item :: done) hroom
      (each next (by simp)), List.reverse_cons, List.append_assoc]
    rfl

theorem finish?_members {room : Nat} {m : String × Json} {members : List (String × Json)}
    (each : ∀ m' ∈ m :: members, Reads room m'.2) (deeper : stack.length + room < depthLimit)
    (done : List (String × Json)) (rest : List Token) :
    (wantName done stack).finish?
        (List.intercalate [.comma] (memberTokens (m :: members)) ++ .closeObject :: rest)
      = (after (.object (membersOf (done.reverse ++ m :: members))) stack).finish? rest := by
  obtain ⟨name, value⟩ := m
  have hroom : (Frame.member done name :: stack).length + room ≤ depthLimit := by
    rw [List.length_cons]
    omega
  have hvalue := each (name, value) List.mem_cons_self
  induction members generalizing name value done with
  | nil =>
    rw [memberTokens, memberTokens, List.intercalate_singleton, List.cons_append, List.cons_append,
      finish?_cons rfl, finish?_cons rfl, hvalue _ _ hroom, finish?_cons rfl, List.reverse_cons]
  | cons next members ih =>
    obtain ⟨name', value'⟩ := next
    rw [memberTokens, memberTokens, List.intercalate_cons_cons, List.append_assoc, List.append_assoc,
      List.cons_append, List.cons_append, finish?_cons rfl, finish?_cons rfl, hvalue _ _ hroom,
      List.singleton_append, finish?_cons rfl, ← memberTokens]
    rw [ih ((name, value) :: done) name' value' (fun m hm => each m (List.mem_cons_of_mem _ hm)) hroom
      (each (name', value') (by simp)), List.reverse_cons, List.append_assoc]
    rfl

theorem reads_of_fits {room : Nat} {document : Json} (fits : document.Fits room) : Reads room document := by
  induction fits with
  | null | bool | int | float | string => exact fun stack rest _ => rfl
  | emptyArray | emptyObject => exact fun stack rest _ => rfl
  | @array room items each ih =>
    intro stack rest hroom
    cases items with
    | nil => rfl
    | cons item items =>
      -- inside the array one level less is left, for its first item as for the others
      rw [tokens, List.cons_append, List.append_assoc, List.singleton_append, finish?_cons rfl,
        finish?_firstItem (by omega), finish?_items ih (by omega)]
      rfl
  | @object room members distinct each ih =>
    intro stack rest hroom
    cases members with
    | nil => rfl
    | cons m members =>
      rw [tokens, List.cons_append, List.append_assoc, List.singleton_append, finish?_cons rfl,
        finish?_firstName (by omega), finish?_members ih (by omega), List.reverse_nil, List.nil_append,
        membersOf_of_nodup distinct]

theorem finish?_tokens {document : Json} (fits : document.Fits depthLimit) :
    (wantValue []).finish? document.tokens = some document := by
  have hread := reads_of_fits fits [] [] (Nat.le_of_eq (Nat.zero_add depthLimit))
  rwa [List.append_nil] at hread

end Documents

end Reading

def Token.Fits : Token → Prop
  | .scalar value => ∀ room, value.Fits room
  | _ => True

def Frame.Fits (room : Nat) : Frame → Prop
  | .items done => ∀ item ∈ done, item.Fits room
  | .member done _ => ∀ m ∈ done, m.2.Fits room

/-- So many levels are left inside the open frames, and what they hold fits in those left at its place. -/
def Leaves : Nat → List Frame → Prop
  | room, [] => room = depthLimit
  | room, frame :: stack => frame.Fits room ∧ Leaves (room + 1) stack

theorem Leaves.add_length {room : Nat} {stack : List Frame} (h : Leaves room stack) :
    room + stack.length = depthLimit := by
  induction stack generalizing room with
  | nil => exact h
  | cons frame stack ih =>
    have hbelow := ih h.2
    rw [List.length_cons]
    omega

theorem Leaves.exists_succ {room : Nat} {stack : List Frame} (h : Leaves room stack)
    (deeper : stack.length < depthLimit) : ∃ inner, room = inner + 1 := by
  have hlength := h.add_length
  exact Nat.exists_eq_add_one.mpr (by omega)

namespace Reading

/-- All that was read so far is within the limits. -/
inductive Fits : Reading → Prop where
  | wantValue {room : Nat} {stack : List Frame} (leaves : Leaves room stack) : Fits (.wantValue stack)
  | firstItem {room : Nat} {stack : List Frame} (leaves : Leaves room stack) : Fits (.firstItem stack)
  | firstName {room : Nat} {stack : List Frame} (leaves : Leaves room stack) : Fits (.firstName stack)
  | wantName {room : Nat} {done : List (String × Json)} {stack : List Frame}
      (held : ∀ m ∈ done, m.2.Fits room) (leaves : Leaves (room + 1) stack) : Fits (.wantName done stack)
  | wantColon {room : Nat} {done : List (String × Json)} {name : String} {stack : List Frame}
      (held : ∀ m ∈ done, m.2.Fits room) (leaves : Leaves (room + 1) stack) :
      Fits (.wantColon done name stack)
  | after {room : Nat} {value : Json} {stack : List Frame} (fits : value.Fits room)
      (leaves : Leaves room stack) : Fits (.after value stack)

section Steps
variable {room : Nat} {stack : List Frame} {token : Token} {next : Reading}

theorem fits_of_beginValue? (leaves : Leaves room stack) (scalar : token.Fits)
    (h : beginValue? stack token = some next) : next.Fits := by
  cases token with
  | scalar value => exact Option.some.inj h ▸ .after (scalar room) leaves
  | string s => exact Option.some.inj h ▸ .after (.string s) leaves
  | openArray => exact Option.some.inj h ▸ .firstItem leaves
  | openObject => exact Option.some.inj h ▸ .firstName leaves
  | _ => cases h

theorem fits_of_step? {reading : Reading} (fits : reading.Fits) (scalar : token.Fits)
    (h : reading.step? token = some next) : next.Fits := by
  cases fits with
  | wantValue leaves => exact fits_of_beginValue? leaves scalar h
  | firstItem leaves =>
    cases token with
    | closeArray => exact Option.some.inj h ▸ .after .emptyArray leaves
    | _ =>
      simp only [step?] at h
      split at h
      · -- only now that something stands inside the array a level is taken
        rename_i deeper
        obtain ⟨inner, rfl⟩ := leaves.exists_succ deeper
        have hinside : Leaves inner (.items [] :: _) := ⟨List.forall_mem_nil _, leaves⟩
        exact fits_of_beginValue? hinside scalar h
      · cases h
  | firstName leaves =>
    cases token with
    | closeObject => exact Option.some.inj h ▸ .after .emptyObject leaves
    | string name =>
      simp only [step?] at h
      split at h
      · rename_i deeper
        obtain ⟨inner, rfl⟩ := leaves.exists_succ deeper
        exact Option.some.inj h ▸ .wantColon (List.forall_mem_nil _) leaves
      · cases h
    | _ => cases h
  | wantName held leaves =>
    cases token with
    | string name => exact Option.some.inj h ▸ .wantColon held leaves
    | _ => cases h
  | wantColon held leaves =>
    cases token with
    | colon => exact Option.some.inj h ▸ .wantValue ⟨held, leaves⟩
    | _ => cases h
  | @after room value stack fits leaves =>
    cases stack with
    | nil => cases h
    | cons frame stack =>
      obtain ⟨held, leaves⟩ := leaves
      cases frame with
      | items done =>
        have hitems : ∀ item ∈ value :: done, item.Fits room := List.forall_mem_cons.mpr ⟨fits, held⟩
        cases token with
        | comma => exact Option.some.inj h ▸ .wantValue ⟨hitems, leaves⟩
        | closeArray =>
          refine Option.some.inj h ▸ .after (.array fun item hitem => ?_) leaves
          exact hitems item (List.mem_reverse.mp hitem)
        | _ => cases h
      | member done name =>
        have hmembers : ∀ m ∈ (name, value) :: done, m.2.Fits room :=
          List.forall_mem_cons.mpr ⟨fits, held⟩
        cases token with
        | comma => exact Option.some.inj h ▸ .wantName hmembers leaves
        | closeObject =>
          refine Option.some.inj h ▸ .after (.object (nodup_membersOf _) fun m hm => ?_) leaves
          exact hmembers m (List.mem_reverse.mp (mem_of_mem_membersOf hm))
        | _ => cases h

theorem fits_of_finish? {reading : Reading} {tokens : List Token} {document : Json} (fits : reading.Fits)
    (scalars : ∀ token ∈ tokens, token.Fits) (h : reading.finish? tokens = some document) :
    document.Fits depthLimit := by
  induction tokens generalizing reading with
  | nil =>
    cases fits with
    | @after room value stack fits leaves =>
      cases stack with
      | nil =>
        obtain rfl := Option.some.inj h
        exact leaves ▸ fits
      | cons frame stack => cases h
    | _ => cases h
  | cons token tokens ih =>
    rw [finish?] at h
    split at h
    · cases h
    · rename_i next hnext
      exact ih (fits_of_step? fits (scalars token List.mem_cons_self) hnext)
        (fun other hother => scalars other (List.mem_cons_of_mem token hother)) h

end Steps

end Reading

end EventDelivery.Json

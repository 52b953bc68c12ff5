import EventDelivery.Proofs.Rendered

/-! What keeps a payload from being written. In words a payload is written unless some integer in it, at any
depth, has too many digits, or an object in it does not tell its words. In compact JSON a payload must not hold itself
either, and its mappings must have keys that are names; there an integer counts wherever it is written, in digits or in
words. Every fault blames what is written, except those that an object raises itself. -/

namespace EventDelivery
set_option autoImplicit false

namespace Payload

/-- What a payload holds directly, the keys of a mapping included, itself left out. -/
def parts : Payload → List Payload
  | sequence _ items | set _ items | cyclicList items => items
  | mapping _ entries => entries.flatMap fun (key, value) => [key, value]
  | cyclicMapping entries key => key :: entries.flatMap fun (key, value) => [key, value]
  | model fields => fields.map (·.2)
  | _ => []

def integers : Payload → List Int
  | int n => [n]
  | range start stop step => [start, stop, step]
  | _ => []

section Parts

theorem sizeOf_lt_of_mem_entries {part : Payload} {entries : List (Payload × Payload)}
    (h : part ∈ entries.flatMap fun (key, value) => [key, value]) : sizeOf part < sizeOf entries := by
  obtain ⟨⟨key, value⟩, he, hpart⟩ := List.mem_flatMap.mp h
  have hentry := List.sizeOf_lt_of_mem he
  simp at hentry ⊢
  rcases List.mem_pair.mp hpart with rfl | rfl <;> omega

theorem sizeOf_lt_of_mem_parts {part payload : Payload} (h : part ∈ payload.parts) :
    sizeOf part < sizeOf payload := by
  cases payload with
  | sequence kind items | set frozen items | cyclicList items =>
    have hitem : sizeOf part < sizeOf items := List.sizeOf_lt_of_mem h
    simp
    omega
  | mapping readOnly entries =>
    have hentries := sizeOf_lt_of_mem_entries h
    rw [mapping.sizeOf_spec]
    omega
  | cyclicMapping entries key =>
    rw [cyclicMapping.sizeOf_spec]
    rcases List.mem_cons.mp h with rfl | h
    · omega
    · have hentries := sizeOf_lt_of_mem_entries h
      omega
  | model fields =>
    obtain ⟨⟨name, value⟩, hf, rfl⟩ := List.mem_map.mp h
    have hfield := List.sizeOf_lt_of_mem hf
    simp at hfield ⊢
    omega
  | _ => cases h

theorem induction_on_parts {motive : Payload → Prop}
    (step : ∀ payload : Payload, (∀ part ∈ payload.parts, motive part) → motive payload) (payload : Payload) :
    motive payload :=
  step payload fun part h =>
    have := sizeOf_lt_of_mem_parts h
    induction_on_parts step part
termination_by sizeOf payload

/-- The payload, or something in it at any depth, is such. -/
inductive Holds (such : Payload → Prop) : Payload → Prop where
  | own {payload : Payload} (h : such payload) : Holds such payload
  | part {payload part : Payload} (h : part ∈ payload.parts) (holds : Holds such part) : Holds such payload

end Parts

section Traversals

theorem literals_eq_mapM (items : List Payload) : literals items = items.mapM literal := by
  induction items with
  | nil => rfl
  | cons item items ih => rw [List.mapM_cons, ← ih, literals]

theorem entryLiterals_eq_mapM (entries : List (Payload × Payload)) :
    entryLiterals entries = entries.mapM fun e =>
      e.1.literal >>= fun k => e.2.literal.map (entryLiteral k) := by
  induction entries with
  | nil => rfl
  | cons e entries ih =>
    obtain ⟨key, value⟩ := e
    rw [List.mapM_cons, ← ih, entryLiterals]
    cases literal key <;> cases literal value <;> rfl

theorem fieldLiterals_eq_mapM (fields : List (String × Payload)) :
    fieldLiterals fields = fields.mapM fun f =>
      f.2.literal.map fun v => Text.ofString f.1 ++ Text.ofString "=" ++ v := by
  induction fields with
  | nil => rfl
  | cons f fields ih =>
    obtain ⟨name, value⟩ := f
    rw [List.mapM_cons, ← ih, fieldLiterals]
    cases literal value <;> rfl

theorem compacts_eq_mapM (items : List Payload) : compacts items = items.mapM compact := by
  induction items with
  | nil => rfl
  | cons item items ih => rw [List.mapM_cons, ← ih, compacts]

theorem entryCompacts_eq_mapM (entries : List (Payload × Payload)) :
    entryCompacts entries = entries.mapM fun e =>
      compactKey e.1 >>= fun k => e.2.compact.map fun v => Json.quotedAscii k ++ ':' :: v := by
  induction entries with
  | nil => rfl
  | cons e entries ih =>
    obtain ⟨key, value⟩ := e
    rw [List.mapM_cons, ← ih, entryCompacts]
    cases compactKey key <;> cases compact value <;> rfl

end Traversals

section Words
variable {fault : Fault}

/-- An integer in the payload, at any depth, has too many digits to be written. -/
def Overlong (payload : Payload) : Prop :=
  payload.Holds fun q => ∃ n ∈ q.integers, withinDigitLimit n = false

/-- The payload has this fault of its own in words: an integer has too many digits, or an object does not tell
what it is. -/
def Unspoken (fault : Fault) : Payload → Prop
  | stranger _ literal _ => literal = .error fault
  | payload => fault = .tooManyDigits ∧ ∃ n ∈ payload.integers, withinDigitLimit n = false

def isStranger : Payload → Bool
  | stranger .. => true
  | _ => false

theorem not_unspoken_of_integers {payload : Payload} (known : payload.isStranger = false)
    (h : payload.integers = []) : ¬ payload.Unspoken fault := by
  intro hown
  cases payload with
  | stranger => cases known
  | _ =>
    obtain ⟨-, m, hm, -⟩ := hown
    rw [h] at hm
    cases hm

theorem mem_entries_iff {part : Payload} {entries : List (Payload × Payload)} :
    (part ∈ entries.flatMap fun (key, value) => [key, value]) ↔ ∃ e ∈ entries, part = e.1 ∨ part = e.2 := by
  simp only [List.mem_flatMap, List.mem_pair]

theorem integerText_eq_error {n : Int} (h : integerText n = .error fault) :
    fault = .tooManyDigits ∧ withinDigitLimit n = false := by
  unfold integerText at h
  split at h
  · cases h
  · rename_i hbeyond
    exact ⟨(Except.error.inj h).symm, Bool.eq_false_iff.mpr hbeyond⟩

theorem rangeLiteral_eq_error {start stop step : Int} (h : rangeLiteral start stop step = .error fault) :
    fault = .tooManyDigits ∧ ∃ n ∈ [start, stop, step], withinDigitLimit n = false := by
  have hone (n : Int) (hn : n ∈ [start, stop, step]) (h : integerText n = .error fault) :
      fault = .tooManyDigits ∧ ∃ n ∈ [start, stop, step], withinDigitLimit n = false :=
    ⟨(integerText_eq_error h).1, n, hn, (integerText_eq_error h).2⟩
  rcases bind_eq_error_iff.mp h with h | ⟨first, -, h⟩
  · exact hone start (by simp) h
  rcases bind_eq_error_iff.mp h with h | ⟨last, -, h⟩
  · exact hone stop (by simp) h
  rcases bind_eq_error_iff.mp h with h | ⟨stride, -, h⟩
  · exact hone step (by simp) h
  · cases h

theorem exists_of_entryLiterals_eq_error {entries : List (Payload × Payload)}
    (h : entryLiterals entries = .error fault) :
    ∃ part ∈ entries.flatMap fun (key, value) => [key, value], part.literal = .error fault := by
  rw [entryLiterals_eq_mapM] at h
  obtain ⟨e, he, hfault⟩ := exists_of_mapM_eq_error h
  rcases bind_eq_error_iff.mp hfault with hkey | ⟨k, -, hvalue⟩
  · exact ⟨e.1, mem_entries_iff.mpr ⟨e, he, .inl rfl⟩, hkey⟩
  · exact ⟨e.2, mem_entries_iff.mpr ⟨e, he, .inr rfl⟩, map_eq_error_iff.mp hvalue⟩

/-- One level of a payload: in words it fails for a fault of its own, or as one of its parts. -/
theorem literal_eq_error_parts {payload : Payload} (h : payload.literal = .error fault) :
    payload.Unspoken fault ∨ ∃ part ∈ payload.parts, part.literal = .error fault := by
  cases payload with
  | int n =>
    obtain ⟨hfault, hbeyond⟩ := integerText_eq_error h
    exact .inl ⟨hfault, n, List.mem_singleton.mpr rfl, hbeyond⟩
  | range start stop step => exact .inl (rangeLiteral_eq_error h)
  | sequence kind items | set frozen items | cyclicList items =>
    have hitems : literals items = .error fault := map_eq_error_iff.mp h
    rw [literals_eq_mapM] at hitems
    exact .inr (exists_of_mapM_eq_error hitems)
  | mapping readOnly entries =>
    have hentries : entryLiterals entries = .error fault := by
      cases readOnly <;> exact map_eq_error_iff.mp h
    exact .inr (exists_of_entryLiterals_eq_error hentries)
  | cyclicMapping entries key =>
    right
    rcases bind_eq_error_iff.mp h with hentries | ⟨parts, -, h⟩
    · obtain ⟨part, hpart, hfault⟩ := exists_of_entryLiterals_eq_error hentries
      exact ⟨part, List.mem_cons_of_mem key hpart, hfault⟩
    rcases bind_eq_error_iff.mp h with hkey | ⟨k, -, h⟩
    · exact ⟨key, List.mem_cons_self, hkey⟩
    · cases h
  | model fields =>
    have hfields : fieldLiterals fields = .error fault := map_eq_error_iff.mp h
    rw [fieldLiterals_eq_mapM] at hfields
    obtain ⟨f, hf, hfault⟩ := exists_of_mapM_eq_error hfields
    exact .inr ⟨f.2, List.mem_map_of_mem hf, map_eq_error_iff.mp hfault⟩
  | stranger kind literal display => exact .inl h
  | bool b => cases b <;> cases h
  | _ => cases h

theorem literal_eq_error {payload : Payload} (h : payload.literal = .error fault) :
    payload.Holds (Unspoken fault) := by
  induction payload using induction_on_parts with
  | step payload ih =>
    rcases literal_eq_error_parts h with hown | ⟨part, hpart, hfault⟩
    · exact .own hown
    · exact .part hpart (ih part hpart hfault)

/-- The payload is not told to a reader for this fault. -/
def Untold (fault : Fault) : Payload → Prop
  | stranger _ _ display => display = .error fault
  | payload => payload.Holds (Unspoken fault)

/-- What is known is told to a reader if and only if it is written in words. -/
theorem map_display_of_known {payload : Payload} (known : payload.isStranger = false) :
    payload.display.map (fun _ => ()) = payload.literal.map fun _ => () := by
  cases payload with
  | mapping readOnly entries =>
    cases readOnly with
    | false => rfl
    | true =>
      simp only [display, literal]
      cases entryLiterals entries <;> rfl
  | model fields =>
    simp only [display, literal]
    cases fieldLiterals fields <;> rfl
  | stranger => cases known
  | _ => rfl

theorem untold_of_known {payload : Payload} (known : payload.isStranger = false) :
    payload.Untold fault = payload.Holds (Unspoken fault) := by
  cases payload with
  | stranger => cases known
  | _ => rfl

theorem untold_of_display {payload : Payload} (h : payload.display = .error fault) : payload.Untold fault := by
  cases hknown : payload.isStranger with
  | true =>
    cases payload with
    | stranger kind literal display => exact h
    | _ => cases hknown
  | false =>
    have hwords : payload.literal.map (fun _ => ()) = .error fault := by
      rw [← map_display_of_known hknown, h]
      rfl
    rw [untold_of_known hknown]
    exact literal_eq_error (map_eq_error_iff.mp hwords)

end Words

section Compact
variable {fault : Fault} {payload : Payload}

/-- Whether a payload is of a kind that JSON has no form for. -/
def isForeign : Payload → Bool
  | bytes .. | sequence .deque _ | range .. | set .. | mapping true _ | decimal _ | moment _ | date _ | uuid _
  | complex .. | model _ | stranger .. => true
  | _ => false

theorem compact_of_isForeign (h : payload.isForeign) :
    payload.compact = payload.display.map Json.quotedAscii := by
  cases payload with
  | sequence kind items =>
    cases kind with
    | list | tuple => cases h
    | deque => rfl
  | mapping readOnly entries =>
    cases readOnly with
    | false => cases h
    | true => rfl
  | null | bool | int | float | text | cyclicList | cyclicMapping => cases h
  | _ => rfl

theorem compact_int (n : Int) :
    (int n).compact = if withinDigitLimit n then .ok (integerDigits n) else .error .tooManyDigits := rfl

def isName : Payload → Bool
  | text _ | null | bool _ | int _ | float _ => true
  | _ => false

/-- The key has no name for this fault. -/
inductive Nameless : Fault → Payload → Prop where
  | int {n : Int} (beyond : withinDigitLimit n = false) : Nameless .tooManyDigits (.int n)
  | kind {key : Payload} (h : key.isName = false) : Nameless (.noName key.typeName) key

theorem compactKey_eq_error_iff {key : Payload} : compactKey key = .error fault ↔ key.Nameless fault := by
  constructor
  · intro h
    cases key with
    | int n =>
      obtain ⟨rfl, hbeyond⟩ := integerText_eq_error h
      exact .int hbeyond
    | bool b => cases b <;> cases h
    | null | float | text => cases h
    | _ =>
      obtain rfl := Except.error.inj h
      exact .kind rfl
  · intro h
    cases h with
    | int beyond => exact integerText_of_beyond beyond
    | kind hname =>
      cases key with
      | null | bool | int | float | text => cases hname
      | _ => rfl

/-- What is written one by one in the compact form of a payload. -/
def written : Payload → List Payload
  | sequence .list items | sequence .tuple items | cyclicList items => items
  | mapping false entries | cyclicMapping entries _ => entries.map (·.2)
  | _ => []

def named : Payload → List Payload
  | mapping false entries => entries.map (·.1)
  | cyclicMapping entries key => entries.map (·.1) ++ [key]
  | _ => []

def isCyclic : Payload → Bool
  | cyclicList _ | cyclicMapping .. => true
  | _ => false

/-- The payload has this fault in compact JSON: an integer has too many digits, a payload holds itself, a
mapping has a key that is no name, or what JSON has no form for is not told. It may lie in one of the items of a list or
tuple, or of the values of a mapping. -/
inductive ObstructedBy : Fault → Payload → Prop where
  | int {n : Int} (beyond : withinDigitLimit n = false) : ObstructedBy .tooManyDigits (.int n)
  | cycle {payload : Payload} (h : payload.isCyclic) : ObstructedBy .circular payload
  | key {fault : Fault} {payload key : Payload} (h : key ∈ payload.named) (nameless : key.Nameless fault) :
      ObstructedBy fault payload
  | part {fault : Fault} {payload part : Payload} (h : part ∈ payload.written)
      (obstructed : ObstructedBy fault part) : ObstructedBy fault payload
  | foreign {fault : Fault} {payload : Payload} (h : payload.isForeign) (untold : payload.Untold fault) :
      ObstructedBy fault payload

theorem mem_parts_of_mem_written {part : Payload} (h : part ∈ payload.written) : part ∈ payload.parts := by
  have hentries {entries : List (Payload × Payload)} (h : part ∈ entries.map (·.2)) :
      part ∈ entries.flatMap fun (key, value) => [key, value] := by
    obtain ⟨e, he, rfl⟩ := List.mem_map.mp h
    exact mem_entries_iff.mpr ⟨e, he, .inr rfl⟩
  cases payload with
  | sequence kind items =>
    cases kind with
    | list | tuple => exact h
    | deque => cases h
  | mapping readOnly entries =>
    cases readOnly with
    | false => exact hentries h
    | true => cases h
  | cyclicList items => exact h
  | cyclicMapping entries key => exact List.mem_cons_of_mem key (hentries h)
  | _ => cases h

theorem exists_of_entryCompacts_eq_error {entries : List (Payload × Payload)}
    (h : entryCompacts entries = .error fault) :
    (∃ key ∈ entries.map (·.1), key.Nameless fault) ∨
      ∃ value ∈ entries.map (·.2), value.compact = .error fault := by
  rw [entryCompacts_eq_mapM] at h
  obtain ⟨e, he, hfault⟩ := exists_of_mapM_eq_error h
  rcases bind_eq_error_iff.mp hfault with hkey | ⟨k, -, hvalue⟩
  · exact .inl ⟨e.1, List.mem_map_of_mem he, compactKey_eq_error_iff.mp hkey⟩
  · exact .inr ⟨e.2, List.mem_map_of_mem he, map_eq_error_iff.mp hvalue⟩

theorem obstructedBy_of_compact (h : payload.compact = .error fault) : payload.ObstructedBy fault := by
  induction payload using induction_on_parts with
  | step payload ih =>
    have hpart {part : Payload} (hpart : part ∈ payload.written) (hfault : part.compact = .error fault) :
        payload.ObstructedBy fault :=
      .part hpart (ih part (mem_parts_of_mem_written hpart) hfault)
    by_cases hforeign : payload.isForeign
    · rw [compact_of_isForeign hforeign, map_eq_error_iff] at h
      exact .foreign hforeign (untold_of_display h)
    cases payload with
    | int n =>
      rw [compact_int] at h
      split at h
      · cases h
      · rename_i hbeyond
        obtain rfl := Except.error.inj h
        exact .int (Bool.eq_false_iff.mpr hbeyond)
    | sequence kind items =>
      cases kind with
      | list | tuple =>
        have hitems : compacts items = .error fault := map_eq_error_iff.mp h
        rw [compacts_eq_mapM] at hitems
        obtain ⟨item, hitem, hfault⟩ := exists_of_mapM_eq_error hitems
        exact hpart hitem hfault
      | deque => exact absurd rfl hforeign
    | cyclicList items =>
      rcases bind_eq_error_iff.mp h with hitems | ⟨cs, -, h⟩
      · rw [compacts_eq_mapM] at hitems
        obtain ⟨item, hitem, hfault⟩ := exists_of_mapM_eq_error hitems
        exact hpart hitem hfault
      · obtain rfl := Except.error.inj h
        exact .cycle rfl
    | mapping readOnly entries =>
      cases readOnly with
      | true => exact absurd rfl hforeign
      | false =>
        rcases exists_of_entryCompacts_eq_error (map_eq_error_iff.mp h) with ⟨key, hkey, nameless⟩ | ⟨value, hv, hfault⟩
        · exact .key hkey nameless
        · exact hpart hv hfault
    | cyclicMapping entries key =>
      rcases bind_eq_error_iff.mp h with hentries | ⟨cs, -, h⟩
      · rcases exists_of_entryCompacts_eq_error hentries with ⟨key', hkey, nameless⟩ | ⟨value, hv, hfault⟩
        · exact .key (List.mem_append_left _ hkey) nameless
        · exact hpart hv hfault
      rcases bind_eq_error_iff.mp h with hkey | ⟨k, -, h⟩
      · exact .key (List.mem_append_right _ (List.mem_singleton.mpr rfl)) (compactKey_eq_error_iff.mp hkey)
      · obtain rfl := Except.error.inj h
        exact .cycle rfl
    | null | float | text => cases h
    | bool b => cases b <;> cases h
    | _ => exact absurd rfl hforeign

section Written
variable {cs : List Char} (h : payload.compact = .ok cs)
include h

theorem not_isCyclic_of_compact : payload.isCyclic = false := by
  cases payload with
  | cyclicList items =>
    obtain ⟨parts, -, h⟩ := bind_eq_ok_iff.mp h
    cases h
  | cyclicMapping entries key =>
    obtain ⟨parts, -, h⟩ := bind_eq_ok_iff.mp h
    obtain ⟨k, -, h⟩ := bind_eq_ok_iff.mp h
    cases h
  | _ => rfl

end Written

end Compact

section Blame
variable {fault : Fault} {payload : Payload}

end Blame

end Payload

end EventDelivery

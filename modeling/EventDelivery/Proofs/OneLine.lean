import EventDelivery.Proofs.Digits
import EventDelivery.Proofs.Encoding
import EventDelivery.Proofs.Obstruction

/-! What a container is written in: one line of printable ASCII. Whatever text, bytes, times or doubles it
holds, at any depth, all else is escaped or spelled in digits and words; so the text has an encoding, with one
byte for each character. -/

namespace EventDelivery
set_option autoImplicit false

/-- All characters are printable ASCII, the space included. -/
def OneLine (cs : List Char) : Prop := ∀ c ∈ cs, 0x20 ≤ c.toNat ∧ c.toNat ≤ 0x7E

instance (cs : List Char) : Decidable (OneLine cs) :=
  List.decidableBAll (fun c : Char => 0x20 ≤ c.toNat ∧ c.toNat ≤ 0x7E) cs

section Lists
variable {cs ds : List Char} {c : Char}

theorem oneLine_nil : OneLine [] := List.forall_mem_nil _

@[simp] theorem oneLine_cons : OneLine (c :: cs) ↔ (0x20 ≤ c.toNat ∧ c.toNat ≤ 0x7E) ∧ OneLine cs :=
  List.forall_mem_cons

@[simp] theorem oneLine_append : OneLine (cs ++ ds) ↔ OneLine cs ∧ OneLine ds := List.forall_mem_append

theorem OneLine.sublist (h : OneLine ds) (sub : cs.Sublist ds) : OneLine cs := fun c hc => h c (sub.subset hc)

theorem oneLine_intercalate {separator : List Char} {parts : List (List Char)} (h : OneLine separator)
    (each : ∀ part ∈ parts, OneLine part) : OneLine (List.intercalate separator parts) := by
  induction parts with
  | nil => exact oneLine_nil
  | cons part parts ih =>
    obtain ⟨hpart, hparts⟩ := List.forall_mem_cons.mp each
    cases parts with
    | nil => rwa [List.intercalate_singleton]
    | cons next parts =>
      rw [List.intercalate_cons_of_ne_nil (List.cons_ne_nil next parts)]
      simp only [oneLine_append]
      exact ⟨⟨hpart, h⟩, ih hparts⟩

end Lists

theorem oneLine_of_isDigit {cs : List Char} (h : ∀ c ∈ cs, c.isDigit) : OneLine cs := by
  intro c hc
  have hdigit := h c hc
  simp only [Char.isDigit, ge_iff_le, Bool.and_eq_true, decide_eq_true_eq, UInt32.le_iff_toNat_le] at hdigit
  have hval : c.toNat = c.val.toNat := rfl
  have hzero : '0'.val.toNat = 48 := rfl
  have hnine : '9'.val.toNat = 57 := rfl
  omega

theorem oneLine_decimalDigits (n : Nat) : OneLine (decimalDigits n) :=
  oneLine_of_isDigit fun _ => isDigit_of_mem_decimalDigits

theorem oneLine_integerDigits (n : Int) : OneLine (integerDigits n) := by
  cases n with
  | ofNat n => exact oneLine_decimalDigits n
  | negSucc n => exact oneLine_cons.mpr ⟨by decide, oneLine_decimalDigits (n + 1)⟩

theorem oneLine_zeros (n : Int) : OneLine (Decimal.zeros n) := by
  intro c hc
  rw [List.eq_of_mem_replicate hc]
  decide

theorem oneLine_hexDigits (width n : Nat) : OneLine (hexDigits width n) := by
  have hdigit : ∀ d < 16, 0x20 ≤ (Nat.digitChar d).toNat ∧ (Nat.digitChar d).toNat ≤ 0x7E := by decide
  intro c hc
  obtain ⟨i, -, rfl⟩ := List.mem_map.mp hc
  exact hdigit _ (Nat.mod_lt _ (by decide))

namespace FloatForm
variable {ds : List Char}

theorem oneLine_positional (form : FloatForm) (h : OneLine ds) (unit : Int) :
    OneLine (form.positional ds unit) := by
  have hzeros := oneLine_zeros
  have htake (n : Nat) : OneLine (ds.take n) := h.sublist (List.take_sublist n ds)
  have hdrop (n : Nat) : OneLine (ds.drop n) := h.sublist (List.drop_sublist n ds)
  simp only [positional]
  split
  · split <;> simp [h, hzeros, oneLine_nil]
  · split <;> simp [h, hzeros, htake, hdrop]

theorem oneLine_scientific (form : FloatForm) (h : OneLine ds) (lead : Int) :
    OneLine (form.scientific ds lead) := by
  have htake : OneLine (ds.take 1) := h.sublist (List.take_sublist 1 ds)
  have hpoint : OneLine (if 1 < ds.length then '.' :: ds.drop 1 else []) := by
    split
    · exact oneLine_cons.mpr ⟨by decide, h.sublist (List.drop_sublist 1 ds)⟩
    · exact oneLine_nil
  have hsign : OneLine [if lead < 0 then '-' else '+'] := by split <;> decide
  have hpadding (n : Nat) : OneLine (List.replicate n '0') := oneLine_zeros n
  have hpower := oneLine_decimalDigits lead.natAbs
  simp only [scientific, oneLine_append]
  refine ⟨⟨⟨htake, hpoint⟩, ?_⟩, hpower⟩
  exact oneLine_cons.mpr ⟨by decide, oneLine_cons.mpr ⟨(oneLine_cons.mp hsign).1, hpadding _⟩⟩

theorem oneLine_write_finite (form : FloatForm) (negative : Bool) (rank : Fin 0x7FF0000000000000) :
    OneLine (form.write (.finite negative rank)) := by
  simp only [write, oneLine_append]
  constructor
  · split
    · decide
    · exact oneLine_nil
  · generalize (if rank.val = 0 then (0, 0) else Binary64.shortest form.tie rank) = written
    obtain ⟨d, unit⟩ := written
    have hdigits := oneLine_decimalDigits d
    dsimp only
    split
    · exact form.oneLine_positional hdigits _
    · exact form.oneLine_scientific hdigits _

theorem oneLine_write_compact (x : Binary64) : OneLine (compact.write x) := by
  cases x with
  | nan => decide
  | infinite negative => cases negative <;> decide
  | finite negative rank => exact oneLine_write_finite compact negative rank

end FloatForm

namespace Json

theorem oneLine_unitEscape (unit : Nat) : OneLine (unitEscape unit) := by
  have hdigits := oneLine_hexDigits 4 unit
  rw [unitEscape]
  simp only [oneLine_cons]
  exact ⟨by decide, by decide, hdigits⟩

theorem oneLine_unitEscapes (v : Nat) : OneLine (unitEscapes v) := by
  unfold unitEscapes
  split
  · exact oneLine_unitEscape v
  · exact oneLine_append.mpr ⟨oneLine_unitEscape _, oneLine_unitEscape _⟩

theorem oneLine_shortEscape {v : Nat} {escape : List Char} (h : shortEscape? v = some escape) :
    OneLine escape := by
  unfold shortEscape? at h
  split at h
  · obtain rfl := Option.some.inj h
    decide
  split at h
  · obtain rfl := Option.some.inj h
    decide
  · obtain ⟨letter, hletter, rfl⟩ := Option.map_eq_some_iff.mp h
    unfold escapeLetter? at hletter
    split at hletter
    case h_6 => cases hletter
    all_goals
      obtain rfl := Option.some.inj hletter
      decide

theorem oneLine_asciiEscaped (p : CodePoint) : OneLine (asciiEscaped p) := by
  unfold asciiEscaped
  split
  · rename_i escape hescape
    exact oneLine_shortEscape hescape
  · split
    · split
      · rename_i hprintable
        exact oneLine_cons.mpr ⟨hprintable, oneLine_nil⟩
      · exact oneLine_unitEscapes _
    · exact oneLine_unitEscape _

theorem oneLine_quotedAscii (t : Text) : OneLine (quotedAscii t) := by
  rw [quotedAscii]
  simp only [oneLine_cons, oneLine_append]
  refine ⟨by decide, ?_, by decide, oneLine_nil⟩
  intro c hc
  obtain ⟨p, -, hc⟩ := List.mem_flatMap.mp hc
  exact oneLine_asciiEscaped p c hc

theorem oneLine_bracketed {opening closing : Char} {parts : List (List Char)}
    (hopening : 0x20 ≤ opening.toNat ∧ opening.toNat ≤ 0x7E) (each : ∀ part ∈ parts, OneLine part)
    (hclosing : 0x20 ≤ closing.toNat ∧ closing.toNat ≤ 0x7E) : OneLine (bracketed opening parts closing) := by
  rw [bracketed]
  simp only [oneLine_cons, oneLine_append]
  exact ⟨hopening, oneLine_intercalate (by decide) each, hclosing, oneLine_nil⟩

end Json

namespace Payload

mutual

theorem oneLine_of_compact : ∀ payload : Payload, ∀ cs, payload.compact = .ok cs → OneLine cs
  | .null => by
    intro cs h
    obtain rfl := Except.ok.inj h
    decide
  | .bool b => by
    intro cs h
    cases b
    all_goals
      obtain rfl := Except.ok.inj h
      decide
  | .int n => by
    intro cs h
    rw [compact_int] at h
    split at h
    · obtain rfl := Except.ok.inj h
      exact oneLine_integerDigits n
    · cases h
  | .float x => by
    intro cs h
    obtain rfl := Except.ok.inj h
    exact FloatForm.oneLine_write_compact x
  | .text t => by
    intro cs h
    obtain rfl := Except.ok.inj h
    exact Json.oneLine_quotedAscii t
  | .sequence .list items | .sequence .tuple items => by
    intro cs h
    obtain ⟨parts, hparts, rfl⟩ := map_eq_ok_iff.mp h
    exact Json.oneLine_bracketed (by decide) (oneLine_of_compacts items parts hparts) (by decide)
  | .mapping false entries => by
    intro cs h
    obtain ⟨parts, hparts, rfl⟩ := map_eq_ok_iff.mp h
    exact Json.oneLine_bracketed (by decide) (oneLine_of_entryCompacts entries parts hparts) (by decide)
  | .cyclicList _ | .cyclicMapping .. => by
    intro cs h
    cases not_isCyclic_of_compact h
  | .bytes .. | .sequence .deque _ | .range .. | .set .. | .mapping true _ | .decimal _ | .moment _ | .date _
  | .uuid _ | .complex .. | .model _ | .stranger .. => by
    intro cs h
    rw [compact_of_isForeign rfl] at h
    obtain ⟨t, -, rfl⟩ := map_eq_ok_iff.mp h
    exact Json.oneLine_quotedAscii t

theorem oneLine_of_compacts : ∀ items : List Payload, ∀ parts, compacts items = .ok parts →
    ∀ part ∈ parts, OneLine part
  | [] => by
    intro parts h
    obtain rfl := Except.ok.inj h
    exact List.forall_mem_nil _
  | item :: items => by
    intro parts h
    simp only [compacts, bind_eq_ok_iff] at h
    obtain ⟨first, hfirst, rest, hrest, h⟩ := h
    obtain rfl := Except.ok.inj h
    exact List.forall_mem_cons.mpr
      ⟨oneLine_of_compact item first hfirst, oneLine_of_compacts items rest hrest⟩

theorem oneLine_of_entryCompacts : ∀ entries : List (Payload × Payload), ∀ parts,
    entryCompacts entries = .ok parts → ∀ part ∈ parts, OneLine part
  | [] => by
    intro parts h
    obtain rfl := Except.ok.inj h
    exact List.forall_mem_nil _
  | (key, value) :: entries => by
    intro parts h
    simp only [entryCompacts, bind_eq_ok_iff] at h
    obtain ⟨name, -, first, hfirst, rest, hrest, h⟩ := h
    obtain rfl := Except.ok.inj h
    have hvalue := oneLine_of_compact value first hfirst
    refine List.forall_mem_cons.mpr ⟨?_, oneLine_of_entryCompacts entries rest hrest⟩
    exact oneLine_append.mpr ⟨Json.oneLine_quotedAscii name, oneLine_cons.mpr ⟨by decide, hvalue⟩⟩

end

theorem ne_nil_of_compact {payload : Payload} (container : payload.isContainer) {cs : List Char}
    (h : payload.compact = .ok cs) : cs ≠ [] := by
  by_cases hforeign : payload.isForeign
  · rw [compact_of_isForeign hforeign] at h
    obtain ⟨t, -, rfl⟩ := map_eq_ok_iff.mp h
    exact List.cons_ne_nil _ _
  · cases payload with
    | sequence kind items =>
      cases kind with
      | list | tuple =>
        obtain ⟨parts, -, rfl⟩ := map_eq_ok_iff.mp h
        exact List.cons_ne_nil _ _
      | deque => exact absurd rfl hforeign
    | mapping readOnly entries =>
      cases readOnly with
      | false =>
        obtain ⟨parts, -, rfl⟩ := map_eq_ok_iff.mp h
        exact List.cons_ne_nil _ _
      | true => exact absurd rfl hforeign
    | range start stop step => exact absurd rfl hforeign
    | cyclicList | cyclicMapping => cases not_isCyclic_of_compact h
    | _ => cases container

end Payload

section Bytes

theorem OneLine.toUTF8 {cs : List Char} (h : OneLine cs) :
    (String.ofList cs).toUTF8.data.toList = cs.map fun c => UInt8.ofNat c.toNat := by
  rw [Utf8.toUTF8_eq_toByteArray, String.toList_ofList, List.toList_data_toByteArray]
  induction cs with
  | nil => rfl
  | cons c cs ih =>
    obtain ⟨⟨-, hc⟩, hcs⟩ := oneLine_cons.mp h
    have hval : c.val.toNat = c.toNat := rfl
    have hencode : String.utf8EncodeChar c = [UInt8.ofNat c.toNat] := by
      simp only [String.utf8EncodeChar]
      rw [if_pos (by omega), hval]
    rw [List.flatMap_cons, List.map_cons, ih hcs, hencode]
    rfl

end Bytes

namespace Payload

example : (sequence .list [.stranger "Task" (.ok []) (.error ⟨.runtime, Text.ofString "busy"⟩)]).renderText
    = .error (.raised ⟨.runtime, Text.ofString "busy"⟩) := rfl

end Payload

end EventDelivery

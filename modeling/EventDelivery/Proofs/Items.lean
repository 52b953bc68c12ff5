import EventDelivery.Writer
import EventDelivery.Proofs.Obstruction

/-! Containers and their items. A list, a tuple and a mapping are rendered as the compact JSON of what they
hold. JSON has no form for a deque, a range or a read-only mapping, so that one of those is rendered as a string
that describes it, and never as the list or the mapping of the same items. -/

namespace EventDelivery
set_option autoImplicit false

namespace Payload

/-- Payloads for which JSON has a form throughout, doubles apart: integers within the limit of digits, any text,
lists, and mappings with texts as keys. -/
inductive IsDocument : Payload → Prop where
  | null : IsDocument .null
  | bool (b : Bool) : IsDocument (.bool b)
  | int {n : Int} (within : withinDigitLimit n) : IsDocument (.int n)
  | text (t : Text) : IsDocument (.text t)
  | list {items : List Payload} (each : ∀ item ∈ items, IsDocument item) : IsDocument (.sequence .list items)
  | mapping {entries : List (Payload × Payload)} (keyed : ∀ e ∈ entries, ∃ t, e.1 = .text t)
      (each : ∀ e ∈ entries, IsDocument e.2) : IsDocument (.mapping false entries)

/-- The list of the items of a sequence, or the mapping with the entries of a mapping, in the same order. -/
def itemized? : Payload → Option Payload
  | sequence kind items => (sequence kind items).items?.map (sequence .list)
  | range start stop step => (range start stop step).items?.map (sequence .list)
  | mapping _ entries => some (mapping false entries)
  | _ => none

section Documents
variable {payload itemized : Payload}

theorem IsDocument.not_holds_unspoken {fault : Fault} (document : payload.IsDocument) :
    ¬ payload.Holds (Unspoken fault) := by
  intro holds
  induction document with
  | null | bool | text =>
    cases holds with
    | own h => exact not_unspoken_of_integers rfl rfl h
    | part h => cases h
  | int within =>
    cases holds with
    | own h =>
      obtain ⟨-, m, hm, beyond⟩ := h
      rw [List.mem_singleton.mp hm, within] at beyond
      cases beyond
    | part h => cases h
  | list _ ih =>
    cases holds with
    | own h => exact not_unspoken_of_integers rfl rfl h
    | part hitem holds => exact ih _ hitem holds
  | mapping keyed _ ih =>
    cases holds with
    | own h => exact not_unspoken_of_integers rfl rfl h
    | part hpart holds =>
      obtain ⟨e, he, rfl | rfl⟩ := mem_entries_iff.mp hpart
      · obtain ⟨t, ht⟩ := keyed e he
        rw [ht] at holds
        cases holds with
        | own h => exact not_unspoken_of_integers rfl rfl h
        | part h => cases h
      · exact ih e he holds

theorem IsDocument.not_obstructedBy {fault : Fault} (document : payload.IsDocument) :
    ¬ payload.ObstructedBy fault := by
  induction document with
  | null | bool | text =>
    intro h
    cases h with
    | cycle h | foreign h => cases h
    | key h | part h => cases h
  | int within =>
    intro h
    cases h with
    | int beyond => exact Bool.false_ne_true (beyond.symm.trans within)
    | cycle h | foreign h => cases h
    | key h | part h => cases h
  | list _ ih =>
    intro h
    cases h with
    | part hitem obstructed => exact ih _ hitem obstructed
    | cycle h | foreign h => cases h
    | key h => cases h
  | mapping keyed _ ih =>
    intro h
    cases h with
    | key h nameless =>
      obtain ⟨e, he, rfl⟩ := List.mem_map.mp h
      obtain ⟨t, ht⟩ := keyed e he
      rw [ht] at nameless
      cases nameless with
      | kind hname => cases hname
    | part h obstructed =>
      obtain ⟨e, he, rfl⟩ := List.mem_map.mp h
      exact ih e he obstructed
    | cycle h | foreign h => cases h

theorem IsDocument.exists_compact (document : payload.IsDocument) : ∃ cs, payload.compact = .ok cs := by
  cases hcompact : payload.compact with
  | ok cs => exact ⟨cs, rfl⟩
  | error fault => exact absurd (obstructedBy_of_compact hcompact) document.not_obstructedBy

/-- What is itemized is a list or a mapping, and the container that it comes from is of the same kind or of one
that is written alike, unless JSON has no form for it. -/
theorem itemized?_eq_some (h : payload.itemized? = some itemized) :
    payload.isContainer ∧ itemized.isContainer ∧
    ((∃ items, itemized = .sequence .list items) ∨ ∃ entries, itemized = .mapping false entries) ∧
    (payload.isForeign = false → payload.compact = itemized.compact) := by
  cases payload with
  | sequence kind items =>
    obtain rfl : sequence .list items = itemized := Option.some.inj h
    refine ⟨rfl, rfl, .inl ⟨items, rfl⟩, ?_⟩
    cases kind with
    | list | tuple => exact fun _ => rfl
    | deque => exact fun native => nomatch native
  | range start stop step =>
    obtain rfl : sequence .list (rangeItems start stop step) = itemized := Option.some.inj h
    exact ⟨rfl, rfl, .inl ⟨_, rfl⟩, fun native => nomatch native⟩
  | mapping readOnly entries =>
    obtain rfl : mapping false entries = itemized := Option.some.inj h
    refine ⟨rfl, rfl, .inr ⟨entries, rfl⟩, ?_⟩
    cases readOnly with
    | false => exact fun _ => rfl
    | true => exact fun native => nomatch native
  | _ => cases h

theorem head?_ne_quote {cs : List Char}
    (h : (∃ items, itemized = .sequence .list items) ∨ ∃ entries, itemized = .mapping false entries)
    (written : itemized.compact = .ok cs) : cs.head? ≠ some '"' := by
  rcases h with ⟨items, rfl⟩ | ⟨entries, rfl⟩
  all_goals
    obtain ⟨parts, -, rfl⟩ := map_eq_ok_iff.mp written
    rw [Json.bracketed, List.head?_cons]
    decide

/-- Of the containers of documents only a range may have words that cannot be told: a bound of it has too many
digits. -/
theorem overlong_of_untold {fault : Fault} (h : payload.itemized? = some itemized)
    (document : itemized.IsDocument) (untold : payload.Untold fault) :
    fault = .tooManyDigits ∧ payload.Overlong := by
  cases payload with
  | range start stop step =>
    cases untold with
    | own h => exact ⟨h.1, .own h.2⟩
    | part h => cases h
  | sequence kind items =>
    obtain rfl : sequence .list items = itemized := Option.some.inj h
    cases untold with
    | own h => exact absurd h (not_unspoken_of_integers rfl rfl)
    | part hitem holds => exact absurd (.part hitem holds) document.not_holds_unspoken
  | mapping readOnly entries =>
    obtain rfl : mapping false entries = itemized := Option.some.inj h
    cases untold with
    | own h => exact absurd h (not_unspoken_of_integers rfl rfl)
    | part hpart holds => exact absurd (.part hpart holds) document.not_holds_unspoken
  | _ => cases h

theorem renderContainer_of_isForeign (h : payload.itemized? = some itemized) (document : itemized.IsDocument)
    (foreign : payload.isForeign) :
    (∃ words, payload.display = .ok words ∧
      payload.renderContainer = .ok (Text.ofList (Json.quotedAscii words))) ∨
    payload.Overlong ∧ payload.renderContainer = .error (.notJson payload.typeName) := by
  rw [renderContainer, compact_of_isForeign foreign]
  cases hdisplay : payload.display with
  | ok words => exact .inl ⟨words, rfl, rfl⟩
  | error fault =>
    obtain ⟨rfl, overlong⟩ := overlong_of_untold h document (untold_of_display hdisplay)
    exact .inr ⟨overlong, rfl⟩

end Documents

/-- The list or the mapping of the items of a container has a text, which is no string. The container has the same
text just when JSON has a form for it: when it is a list, a tuple or a mapping. Else its text is a string that
describes it, or there is none, when a bound of a range has too many digits. -/
theorem renders_items_iff (payload itemized : Payload) (h : payload.itemized? = some itemized)
    (document : itemized.IsDocument) :
    (∃ cs, itemized.renderText = .ok (Text.ofList cs) ∧ cs.head? ≠ some '"') ∧
    (payload.renderText = itemized.renderText ↔ payload.isForeign = false) ∧
    (payload.isForeign →
      (∃ words, payload.display = .ok words ∧
        payload.renderText = .ok (Text.ofList (Json.quotedAscii words))) ∨
      payload.Overlong ∧ payload.renderText = .error (.notJson payload.typeName)) := by
  obtain ⟨container, hcontainer, hkind, halike⟩ := itemized?_eq_some h
  obtain ⟨cs, hcs⟩ := document.exists_compact
  have hhead := head?_ne_quote hkind hcs
  rw [renderText_of_isContainer container, renderText_of_isContainer hcontainer]
  rw [renderContainer_of_compact hcs]
  refine ⟨⟨cs, rfl, hhead⟩, ⟨?_, ?_⟩, renderContainer_of_isForeign h document⟩
  · intro heq
    by_contra hforeign
    rcases renderContainer_of_isForeign h document (Bool.of_not_eq_false hforeign) with
      ⟨words, -, hwords⟩ | ⟨-, herror⟩
    · have hchars := congrArg Text.chars? (Except.ok.inj (hwords.symm.trans heq))
      rw [Text.chars?_ofList, Text.chars?_ofList] at hchars
      rw [← Option.some.inj hchars] at hhead
      exact hhead rfl
    · cases herror.symm.trans heq
  · intro native
    exact renderContainer_of_compact ((halike native).trans hcs)

def sealed : Payload :=
  .mapping true [(.text (Text.ofString "a"), .null), (.text (Text.ofString "b"), .sequence .list [.bool true])]

theorem sealed_renders_items_iff :
    sealed.itemized? = some (.mapping false
      [(.text (Text.ofString "a"), .null), (.text (Text.ofString "b"), .sequence .list [.bool true])]) ∧
    (sequence .tuple [.bool true]).itemized? = some (.sequence .list [.bool true]) ∧
    sealed.renderText ≠ (mapping false
      [(.text (Text.ofString "a"), .null), (.text (Text.ofString "b"), .sequence .list [.bool true])]).renderText ∧
    (sequence .tuple [.bool true]).renderText = (sequence .list [.bool true]).renderText := by
  have hlist : (sequence .list [.bool true]).IsDocument := .list (by simp [IsDocument.bool])
  have hsealed := renders_items_iff sealed _ rfl (.mapping (by simp) (by simp [IsDocument.null, hlist]))
  have htuple := renders_items_iff (sequence .tuple [.bool true]) _ rfl hlist
  exact ⟨rfl, rfl, mt hsealed.2.1.mp (by decide), htuple.2.1.mpr rfl⟩

/-- A read-only mapping without entries is rendered as a string, not as the empty mapping. -/
theorem not_renders_items :
    ¬ ∀ payload itemized : Payload, payload.itemized? = some itemized → itemized.IsDocument →
        payload.renderText = itemized.renderText := by
  intro h
  have heq := h (.mapping true []) (.mapping false []) rfl (.mapping (by simp) (by simp))
  have hstring : (mapping true []).renderText = .ok (Text.ofString "\"\x7b\x7d\"") := rfl
  have hmapping : (mapping false []).renderText = .ok (Text.ofString "\x7b\x7d") := rfl
  rw [hstring, hmapping] at heq
  exact absurd (Text.ofString_injective (Except.ok.inj heq)) (by decide)

end Payload

end EventDelivery

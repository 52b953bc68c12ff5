import EventDelivery.Proofs.Feed
import EventDelivery.Proofs.Line
import EventDelivery.Proofs.Reported

/-! Accepted lines. Whatever a line spells that is read, its integers, strings and levels are within the limits,
and so the event that it is taken for can be written into a record. -/

namespace EventDelivery
set_option autoImplicit false

namespace Json

section Scanning
variable {word : List Char} {token : Token}

theorem fits_of_ofWord? (h : Token.ofWord? word = some token) : token.Fits := by
  unfold Token.ofWord? at h
  split at h
  · obtain rfl := Option.some.inj h
    exact fun room => .null
  split at h
  · obtain rfl := Option.some.inj h
    exact fun room => .bool true
  split at h
  · obtain rfl := Option.some.inj h
    exact fun room => .bool false
  iterate 3
    split at h
    · obtain rfl := Option.some.inj h
      exact fun room => .float _
  obtain ⟨value, hnumber, rfl⟩ := Option.map_eq_some_iff.mp h
  intro room
  rcases number?_eq_some hnumber with ⟨n, rfl, within⟩ | ⟨x, rfl⟩
  · exact .int within
  · exact .float x

variable {scan next : Scan} {tokens done : List Token} {c : Char}

theorem fits_of_ofMark? (h : Token.ofMark? c = some token) : token.Fits := by
  unfold Token.ofMark? at h
  split at h <;> cases h <;> exact trivial

theorem fits_of_start? (h : Scan.start? c = some (next, tokens)) : ∀ token ∈ tokens, token.Fits := by
  intro token htoken
  unfold Scan.start? at h
  split at h
  · cases h
    cases htoken
  split at h
  · cases h
    cases htoken
  split at h
  · cases h
    cases htoken
  · obtain ⟨mark, hmark, heq⟩ := Option.map_eq_some_iff.mp h
    cases heq
    rw [List.mem_singleton.mp htoken]
    exact fits_of_ofMark? hmark

theorem fits_of_step?_word {taken : List Char} (h : (Scan.word taken).step? c = some (next, tokens)) :
    ∀ token ∈ tokens, token.Fits := by
  intro token htoken
  rw [Scan.step?] at h
  split at h
  · cases h
    cases htoken
  · simp only [Option.bind_eq_bind, Option.bind_eq_some_iff] at h
    obtain ⟨last, hlast, ⟨started, more⟩, hstart, heq⟩ := h
    cases heq
    rcases List.mem_append.mp htoken with hmore | hword
    · exact fits_of_start? hstart token hmore
    · rw [List.mem_singleton.mp hword]
      exact fits_of_ofWord? hlast

theorem tokens_of_step?_string {taken : List Char} {escape : Escape}
    (h : (Scan.string taken escape).step? c = some (next, tokens)) :
    tokens = [] ∨ ∃ s, tokens = [.string s] := by
  cases escape with
  | outside =>
    simp only [Scan.step?] at h
    split at h
    · cases h
      exact .inr ⟨_, rfl⟩
    · split at h
      · cases h
        exact .inl rfl
      · split at h
        · cases h
        · cases h
          exact .inl rfl
  | slash =>
    simp only [Scan.step?] at h
    split at h
    · cases h
      exact .inl rfl
    · obtain ⟨letter, -, heq⟩ := Option.map_eq_some_iff.mp h
      cases heq
      exact .inl rfl
  | digits high count value =>
    simp only [Scan.step?, Option.bind_eq_bind, Option.bind_eq_some_iff] at h
    obtain ⟨v, -, h⟩ := h
    split at h
    · cases h
      exact .inl rfl
    · obtain ⟨complete, -, heq⟩ := Option.bind_eq_some_iff.mp h
      cases heq
      exact .inl rfl
  | second high | secondSlash high =>
    simp only [Scan.step?] at h
    split at h
    · cases h
      exact .inl rfl
    · cases h

theorem fits_of_scan (h : scan.step? c = some (next, tokens)) : ∀ token ∈ tokens, token.Fits := by
  cases scan with
  | between => exact fits_of_start? h
  | word taken => exact fits_of_step?_word h
  | string taken escape =>
    rcases tokens_of_step?_string h with rfl | ⟨s, rfl⟩
    · exact List.forall_mem_nil _
    · exact List.forall_mem_singleton.mpr trivial

theorem fits_of_tokensFrom? {text : List Char} (held : ∀ token ∈ done, token.Fits)
    (h : tokensFrom? scan done text = some tokens) : ∀ token ∈ tokens, token.Fits := by
  induction text generalizing scan done with
  | nil =>
    cases scan with
    | between =>
      obtain rfl := Option.some.inj h
      intro token htoken
      exact held token (List.mem_reverse.mp htoken)
    | word taken =>
      obtain ⟨last, hlast, rfl⟩ := Option.map_eq_some_iff.mp h
      intro token htoken
      rcases List.mem_cons.mp (List.mem_reverse.mp htoken) with rfl | hdone
      · exact fits_of_ofWord? hlast
      · exact held token hdone
    | string taken escape => cases h
  | cons c text ih =>
    cases hstep : scan.step? c with
    | none =>
      rw [tokensFrom?_cons_of_none hstep] at h
      cases h
    | some started =>
      obtain ⟨next, more⟩ := started
      rw [tokensFrom?_cons hstep] at h
      refine ih ?_ h
      intro token htoken
      rcases List.mem_append.mp htoken with hmore | hdone
      · exact fits_of_scan hstep token hmore
      · exact held token hdone

end Scanning

/-- Every document that is read is within the limits of reading. -/
theorem fits_of_read? {text : List Char} {document : Json} (h : read? text = some document) :
    document.Fits depthLimit := by
  obtain ⟨tokens, htokens, hfinish⟩ := Option.bind_eq_some_iff.mp h
  have hfits : ∀ token ∈ tokens, token.Fits := fits_of_tokensFrom? (List.forall_mem_nil _) htokens
  have hempty : Leaves depthLimit [] := rfl
  exact Reading.fits_of_finish? (.wantValue hempty) hfits hfinish

theorem Fits.member {room : Nat} {members : List (String × Json)} (h : (Json.object members).Fits (room + 1)) :
    ∀ m ∈ members, m.2.Fits room := by
  cases h with
  | emptyObject => exact List.forall_mem_nil _
  | object _ each => exact each

end Json

namespace Event

section Members
variable {members : List (String × Json)} {room : Nat}

theorem given?_members (name : String) :
    Field.given? (members.map fun (name, value) => (name, value.toPayload)) name
      = (members.find? fun m => m.1 = name).map fun m => m.2.toPayload := by
  rw [Field.given?, List.find?_map, Option.map_map]
  rfl

theorem exists_given?_members (each : ∀ m ∈ members, m.2.Fits room) (name : String) :
    ∃ value : Json, value.Fits room ∧
      (Field.given? (members.map fun (name, value) => (name, value.toPayload)) name).getD .null
        = value.toPayload := by
  rw [given?_members]
  cases hfind : members.find? fun m => m.1 = name with
  | none => exact ⟨.null, .null, rfl⟩
  | some m => exact ⟨m.2, each m (List.mem_of_find?_eq_some hfind), rfl⟩

theorem exists_of_text_toPayload {document : Json} {t : Text} (h : Field.text document.toPayload = .ok t) :
    ∃ s : String, t = Text.ofString s := by
  cases document with
  | string s => exact ⟨s, (Except.ok.inj h).symm⟩
  | _ => cases h

theorem exists_destination {destination : Text}
    (h : Field.required (members.map fun (name, value) => (name, value.toPayload)) "destination" Field.text
      = .ok destination) : ∃ s : String, destination = Text.ofString s := by
  rw [Field.required, given?_members] at h
  cases hfind : members.find? fun m => m.1 = "destination" with
  | none =>
    rw [hfind] at h
    cases h
  | some m =>
    rw [hfind] at h
    exact exists_of_text_toPayload h

end Members

/-- An accepted line is one of documents within the limits, for a destination without halves of pairs. -/
theorem exists_of_ofLine {line : String} {event : Event} (h : ofLine line = .ok event) :
    ∃ (key value : Json) (destination : String), event = ofDocuments key value destination ∧
      key.Fits (Json.depthLimit - 1) ∧ value.Fits (Json.depthLimit - 1) := by
  unfold ofLine at h
  split at h
  · rename_i document hread
    have hfits := Json.fits_of_read? hread
    cases document with
    | object members =>
      have heach : ∀ m ∈ members, m.2.Fits (Json.depthLimit - 1) := Json.Fits.member hfits
      simp only [ofJson, ofFields] at h
      split at h
      · rename_i destination hdestination
        obtain ⟨s, rfl⟩ := exists_destination hdestination
        obtain ⟨key, hkey, hkeyed⟩ := exists_given?_members heach "key"
        obtain ⟨value, hvalue, hvalued⟩ := exists_given?_members heach "value"
        rw [hkeyed, hvalued] at h
        exact ⟨key, value, s, (Except.ok.inj h).symm, hkey, hvalue⟩
      · cases h
    | _ => cases h
  · cases h

theorem exists_of_mem_readFrom {number : Nat} {lines : List String} {event : Event}
    (h : event ∈ (Feed.readFrom number lines).events) : ∃ line ∈ lines, ofLine line = .ok event := by
  have hwritten {lines : List String} {events : List Event} (hmem : event ∈ events)
      (read : (Feed.written lines).mapM ofLine = .ok events) : ∃ line ∈ lines, ofLine line = .ok event := by
    obtain ⟨line, hline, hread⟩ := exists_of_mem_mapM read hmem
    exact ⟨line, List.mem_of_mem_filter hline, hread⟩
  have htells := Feed.tells_readFrom number lines
  generalize Feed.readFrom number lines = feed at h htells
  cases htells with
  | whole read => exact hwritten h read
  | @cut before after bad events issues split read =>
    obtain ⟨line, hline, hread⟩ := hwritten h read
    refine ⟨line, ?_, hread⟩
    rw [split]
    exact List.mem_append_left _ hline

/-- Every event of a feed has a record, whatever stands in for a missing key and wherever it stands. -/
theorem exists_toRecord_of_mem_readEvents {lines : List String} {event : Event}
    (h : event ∈ (readEvents lines).events) {nullKey : Text} {s : String} (nonempty : nullKey ≠ [])
    (string : nullKey.toString? = some s) (position : Nat) :
    ∃ record, event.toRecord nullKey (.int position) = .ok record := by
  obtain ⟨line, -, hread⟩ := exists_of_mem_readFrom h
  obtain ⟨key, value, destination, rfl, hkey, hvalue⟩ := exists_of_ofLine hread
  exact exists_toRecord_of_renderable (Json.renderable_toPayload hkey) (Json.renderable_toPayload hvalue)
    nonempty string position

end Event

end EventDelivery

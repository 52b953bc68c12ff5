import EventDelivery.Proofs.Digits
import EventDelivery.Proofs.Reading
import Mathlib.Data.List.Forall2

/-! Scanning what is spelled. The compact spelling of a legible document is scanned as the tokens of
that document, whatever escapes its strings need; a word is taken whole before anything that ends it. -/

namespace EventDelivery.Json
set_option autoImplicit false

/-- What follows does not go on with a word. -/
def Ends (rest : List Char) : Prop := ∀ c ∈ rest.head?, isWordCharacter c = false

theorem ends_nil : Ends [] := fun _ h => nomatch h

theorem ends_cons {c : Char} (h : isWordCharacter c = false) (rest : List Char) : Ends (c :: rest) :=
  fun _ hc => Option.some.inj hc ▸ h

section Scanning
variable [Release]

/-- From between two tokens the text is scanned as these tokens, whatever ends it. -/
def Spells (cs : List Char) (ts : List Token) : Prop :=
  ∀ (done : List Token) (rest : List Char), Ends rest →
    tokensFrom? .between done (cs ++ rest) = tokensFrom? .between (ts.reverse ++ done) rest

theorem tokens?_of_spells {cs : List Char} {ts : List Token} (h : Spells cs ts) : tokens? cs = some ts := by
  have hscan := h [] [] ends_nil
  rw [List.append_nil, List.append_nil] at hscan
  rw [tokens?, hscan, tokensFrom?, List.reverse_reverse]

section Steps
variable {scan next : Scan} {done tokens : List Token} {c : Char} {rest : List Char}

theorem tokensFrom?_cons (h : scan.step? c = some (next, tokens)) :
    tokensFrom? scan done (c :: rest) = tokensFrom? next (tokens ++ done) rest := by
  rw [tokensFrom?, h]

theorem tokensFrom?_cons_of_none (h : scan.step? c = none) : tokensFrom? scan done (c :: rest) = none := by
  rw [tokensFrom?, h]

theorem tokensFrom?_mark {token : Token} (h : Token.ofMark? c = some token) :
    tokensFrom? .between done (c :: rest) = tokensFrom? .between (token :: done) rest := by
  have hstep : Scan.between.step? c = some (.between, [token]) := by
    unfold Token.ofMark? at h
    split at h <;> cases h <;> rfl
  exact tokensFrom?_cons hstep

end Steps

end Scanning

theorem isWordCharacter_of_ofMark? {c : Char} {token : Token} (h : Token.ofMark? c = some token) :
    isWordCharacter c = false := by
  unfold Token.ofMark? at h
  split at h <;> cases h <;> decide

theorem start?_of_isWordCharacter {c : Char} (h : isWordCharacter c) :
    Scan.start? c = some (.word [c], []) := by
  have hspace : isSpace c = false := by
    by_contra hspace
    simp only [Bool.not_eq_false, isSpace, Bool.or_eq_true, decide_eq_true_eq] at hspace
    rcases hspace with ((rfl | rfl) | rfl) | rfl <;> exact absurd h (by decide)
  have hquote : c ≠ '"' := by
    rintro rfl
    exact absurd h (by decide)
  simp [Scan.start?, hspace, hquote, h]

theorem isWordCharacter_of_isDigit {c : Char} (h : c.isDigit) : isWordCharacter c := by
  simp [isWordCharacter, Char.isAlphanum, h]

section Words
variable [Release] {word : List Char} {token : Token} {done : List Token} {rest : List Char}

theorem tokensFrom?_word (taken : List Char) (all : ∀ c ∈ word, isWordCharacter c) :
    tokensFrom? (.word taken) done (word ++ rest)
      = tokensFrom? (.word (word.reverse ++ taken)) done rest := by
  induction word generalizing taken with
  | nil => rfl
  | cons c word ih =>
    have hstep : (Scan.word taken).step? c = some (.word (c :: taken), []) :=
      if_pos (all c List.mem_cons_self)
    rw [List.cons_append, tokensFrom?_cons hstep, List.nil_append,
      ih _ fun d hd => all d (List.mem_cons_of_mem c hd), List.reverse_cons, List.append_assoc]
    rfl

/-- A complete word is looked up when something else follows, which is scanned as if it came alone. -/
theorem tokensFrom?_ended (ends : Ends rest) (lookup : Token.ofWord? word = some token) :
    tokensFrom? (.word word.reverse) done rest = tokensFrom? .between (token :: done) rest := by
  cases rest with
  | nil => simp only [tokensFrom?, List.reverse_reverse, lookup, Option.map_some]
  | cons c rest =>
    -- a word that is looked up at `c` adds its token after those that `c` begins with
    have hc : isWordCharacter c = false := ends c rfl
    have hstep : (Scan.word word.reverse).step? c
        = (Scan.between.step? c).map fun started => (started.1, started.2 ++ [token]) := by
      simp only [Scan.step?, hc, Bool.false_eq_true, if_false, List.reverse_reverse, lookup]
      cases Scan.start? c <;> rfl
    cases hstart : Scan.between.step? c with
    | none =>
      rw [hstart] at hstep
      rw [tokensFrom?_cons_of_none hstep, tokensFrom?_cons_of_none hstart]
    | some started =>
      rw [hstart] at hstep
      rw [tokensFrom?_cons hstep, tokensFrom?_cons hstart, List.append_assoc]
      rfl

theorem spells_word (nonempty : word ≠ []) (all : ∀ c ∈ word, isWordCharacter c)
    (lookup : Token.ofWord? word = some token) : Spells word [token] := by
  intro done rest ends
  obtain ⟨c, word, rfl⟩ := List.exists_cons_of_ne_nil nonempty
  have hstart : Scan.between.step? c = some (.word [c], []) :=
    start?_of_isWordCharacter (all c List.mem_cons_self)
  rw [List.cons_append, tokensFrom?_cons hstart, List.nil_append,
    tokensFrom?_word _ fun d hd => all d (List.mem_cons_of_mem c hd), ← List.reverse_cons,
    tokensFrom?_ended ends lookup]
  rfl

theorem ofWord?_of_number? {value : Json} (h : number? word = some value) :
    Token.ofWord? word = some (.scalar value) := by
  have hne (reserved : List Char) (hnone : number? reserved = none) : word ≠ reserved := by
    rintro rfl
    rw [hnone] at h
    cases h
  simp only [Token.ofWord?, if_neg (hne "null".toList rfl), if_neg (hne "true".toList rfl),
    if_neg (hne "false".toList rfl), if_neg (hne "NaN".toList rfl), if_neg (hne "Infinity".toList rfl),
    if_neg (hne "-Infinity".toList rfl), h, Option.map_some]

theorem spells_integerDigits {n : Int} (readable : Readable n) :
    Spells (integerDigits n) [.scalar (.int n)] := by
  have hdigit (m : Nat) : ∀ c ∈ decimalDigits m, isWordCharacter c := fun c hc =>
    isWordCharacter_of_isDigit (isDigit_of_mem_decimalDigits hc)
  have hall : ∀ c ∈ integerDigits n, isWordCharacter c := by
    cases n with
    | ofNat m => exact hdigit m
    | negSucc m => exact List.forall_mem_cons.mpr ⟨by decide, hdigit (m + 1)⟩
  exact spells_word (integerDigits_ne_nil n) hall (ofWord?_of_number? (number?_integerDigits_eq_some_iff.mpr readable))

end Words

theorem hexValue?_digitChar {d : Nat} (h : d < 16) : hexValue? (Nat.digitChar d) = some d := by
  have hall : ∀ d < 16, hexValue? (Nat.digitChar d) = some d := by decide
  exact hall d h

section Strings
variable [Release] {done : List Token} {rest : List Char}

theorem tokensFrom?_hexDigits {taken : List Char} {high : Option Nat} {unit : Nat} {next : Scan}
    (small : unit < 0x10000) (h : Scan.unit? taken high unit = some next) :
    tokensFrom? (.string taken (.digits high 0 0)) done (hexDigits 4 unit ++ rest)
      = tokensFrom? next done rest := by
  have hdigit (n : Nat) : hexValue? (Nat.digitChar (n % 16)) = some (n % 16) :=
    hexValue?_digitChar (Nat.mod_lt n (by decide))
  have hstep (count value n : Nat) (hcount : count < 3) :
      (Scan.string taken (.digits high count value)).step? (Nat.digitChar (n % 16))
        = some (.string taken (.digits high (count + 1) (value * 16 + n % 16)), []) := by
    simp only [Scan.step?, hdigit, Option.bind_eq_bind, Option.bind_some, if_pos hcount]
    rfl
  have hlast (value n : Nat) (hvalue : value * 16 + n % 16 = unit) :
      (Scan.string taken (.digits high 3 value)).step? (Nat.digitChar (n % 16)) = some (next, []) := by
    simp only [Scan.step?, hdigit, Option.bind_eq_bind, Option.bind_some, hvalue, h]
    rfl
  have hdigits : hexDigits 4 unit = [Nat.digitChar (unit / 4096 % 16), Nat.digitChar (unit / 256 % 16),
      Nat.digitChar (unit / 16 % 16), Nat.digitChar (unit / 1 % 16)] := rfl
  rw [hdigits, List.cons_append, List.cons_append, List.cons_append, List.cons_append,
    tokensFrom?_cons (hstep 0 _ _ (by decide)), tokensFrom?_cons (hstep 1 _ _ (by decide)),
    tokensFrom?_cons (hstep 2 _ _ (by decide)), tokensFrom?_cons (hlast _ _ (by omega))]
  rfl

/-- An escape with a number comes to its unit: after a slash it begins with `u`. -/
theorem tokensFrom?_unitEscape {taken : List Char} {unit : Nat} {next : Scan} (small : unit < 0x10000)
    (h : Scan.unit? taken none unit = some next) :
    tokensFrom? (.string taken .outside) done (unitEscape unit ++ rest) = tokensFrom? next done rest := by
  rw [unitEscape, List.cons_append, List.cons_append, tokensFrom?_cons rfl, tokensFrom?_cons rfl]
  exact tokensFrom?_hexDigits small h

theorem tokensFrom?_secondEscape {taken : List Char} {high unit : Nat} {next : Scan} (small : unit < 0x10000)
    (h : Scan.unit? taken (some high) unit = some next) :
    tokensFrom? (.string taken (.second high)) done (unitEscape unit ++ rest)
      = tokensFrom? next done rest := by
  rw [unitEscape, List.cons_append, List.cons_append, tokensFrom?_cons rfl, tokensFrom?_cons rfl]
  exact tokensFrom?_hexDigits small h

theorem tokensFrom?_unitEscapes (taken : List Char) (c : Char) :
    tokensFrom? (.string taken .outside) done (unitEscapes c.toNat ++ rest)
      = tokensFrom? (.string (c :: taken) .outside) done rest := by
  have hvalid : c.toNat < 0xD800 ∨ 0xDFFF < c.toNat ∧ c.toNat < 0x110000 := c.valid
  unfold unitEscapes
  split
  · rename_i small
    refine tokensFrom?_unitEscape small ?_
    simp only [Scan.unit?, Char.ofNat_toNat]
    rw [if_neg (by omega), if_neg (by omega)]
  · -- beyond the first plane the two units of a pair come back to the character
    have hfirst : Scan.unit? taken none (0xD800 + (c.toNat - 0x10000) / 0x400)
        = some (.string taken (.second (0xD800 + (c.toNat - 0x10000) / 0x400))) := by
      simp only [Scan.unit?]
      rw [if_pos (by omega)]
    have hsecond : Scan.unit? taken (some (0xD800 + (c.toNat - 0x10000) / 0x400))
        (0xDC00 + (c.toNat - 0x10000) % 0x400) = some (.string (c :: taken) .outside) := by
      have hpair : 0x10000 + (0xD800 + (c.toNat - 0x10000) / 0x400 - 0xD800) * 0x400
          + (0xDC00 + (c.toNat - 0x10000) % 0x400 - 0xDC00) = c.toNat := by omega
      simp only [Scan.unit?, hpair, Char.ofNat_toNat]
      rw [if_pos (by omega)]
    rw [List.append_assoc, tokensFrom?_unitEscape (by omega) hfirst,
      tokensFrom?_secondEscape (by omega) hsecond]

theorem tokensFrom?_shortEscape {taken : List Char} {c : Char} {escape : List Char}
    (h : shortEscape? c.toNat = some escape) :
    tokensFrom? (.string taken .outside) done (escape ++ rest)
      = tokensFrom? (.string (c :: taken) .outside) done rest := by
  have hletter (v : Nat) (hv : c.toNat = v) : c = Char.ofNat v := by rw [← hv, Char.ofNat_toNat]
  unfold shortEscape? at h
  split at h
  · rename_i hquote
    obtain rfl := Option.some.inj h
    rw [hletter _ hquote]
    rfl
  · split at h
    · rename_i hslash
      obtain rfl := Option.some.inj h
      rw [hletter _ hslash]
      rfl
    · obtain ⟨letter, hl, rfl⟩ := Option.map_eq_some_iff.mp h
      unfold escapeLetter? at hl
      split at hl
      all_goals first
        | (rename_i hv; obtain rfl := Option.some.inj hl; rw [hletter _ hv]; rfl)
        | cases hl

theorem tokensFrom?_asciiEscaped (taken : List Char) (c : Char) :
    tokensFrom? (.string taken .outside) done (asciiEscaped (.char c) ++ rest)
      = tokensFrom? (.string (c :: taken) .outside) done rest := by
  unfold asciiEscaped
  split
  · rename_i escape hshort
    exact tokensFrom?_shortEscape hshort
  · rename_i hshort
    dsimp only
    split
    · -- a quote or a slash would have had a short escape
      rename_i hplain
      have hquote : c ≠ '"' := by
        rintro rfl
        cases hshort
      have hslash : c ≠ '\\' := by
        rintro rfl
        cases hshort
      have hstep : (Scan.string taken .outside).step? c = some (.string (c :: taken) .outside, []) := by
        simp only [Scan.step?, if_neg hquote, if_neg hslash]
        rw [if_neg (by omega)]
      exact tokensFrom?_cons hstep
    · exact tokensFrom?_unitEscapes taken c

theorem tokensFrom?_escapes (taken cs : List Char) :
    tokensFrom? (.string taken .outside) done ((Text.ofList cs).flatMap asciiEscaped ++ rest)
      = tokensFrom? (.string (cs.reverse ++ taken) .outside) done rest := by
  induction cs generalizing taken with
  | nil => rfl
  | cons c cs ih =>
    have htext : Text.ofList (c :: cs) = .char c :: Text.ofList cs := rfl
    rw [htext, List.flatMap_cons, List.append_assoc, tokensFrom?_asciiEscaped, ih, List.reverse_cons,
      List.append_assoc]
    rfl

theorem spells_quotedAscii (s : String) : Spells (quotedAscii (Text.ofString s)) [.string s] := by
  intro done rest _
  have hclose : (Scan.string (s.toList.reverse ++ []) .outside).step? '"' = some (.between, [.string s]) := by
    simp [Scan.step?]
  rw [quotedAscii, Text.ofString, List.cons_append, List.append_assoc, tokensFrom?_cons rfl, List.nil_append,
    tokensFrom?_escapes, List.singleton_append, tokensFrom?_cons hclose]
  rfl

end Strings

section Documents
variable [Release] {cs cs' : List Char} {ts ts' : List Token} {c : Char} {token : Token}

theorem Spells.mark_cons (mark : Token.ofMark? c = some token) (h : Spells cs ts) :
    Spells (c :: cs) (token :: ts) := by
  intro done rest ends
  rw [List.cons_append, tokensFrom?_mark mark, h _ _ ends, List.reverse_cons, List.append_assoc]
  rfl

theorem Spells.append_mark (h : Spells cs ts) (mark : Token.ofMark? c = some token) (h' : Spells cs' ts') :
    Spells (cs ++ c :: cs') (ts ++ token :: ts') := by
  intro done rest ends
  have hends : Ends (c :: cs' ++ rest) := ends_cons (isWordCharacter_of_ofMark? mark) _
  rw [List.append_assoc, h _ _ hends, h'.mark_cons mark _ _ ends, List.reverse_append, List.append_assoc]

theorem spells_nil : Spells [] [] := fun _ _ _ => rfl

theorem spells_intercalate {parts : List (List Char)} {tss : List (List Token)}
    (h : List.Forall₂ Spells parts tss) :
    Spells (List.intercalate [','] parts) (List.intercalate [.comma] tss) := by
  induction h with
  | nil => exact spells_nil
  | @cons part ts parts tss hpart hparts ih =>
    cases hparts with
    | nil =>
      rw [List.intercalate_singleton, List.intercalate_singleton]
      exact hpart
    | cons =>
      rw [List.intercalate_cons_cons, List.intercalate_cons_cons, List.append_assoc, List.append_assoc]
      exact hpart.append_mark rfl ih

theorem spells_bracketed {opening closing : Char} {first last : Token} {parts : List (List Char)}
    {tss : List (List Token)} (hopen : Token.ofMark? opening = some first)
    (hclose : Token.ofMark? closing = some last) (h : List.Forall₂ Spells parts tss) :
    Spells (bracketed opening parts closing) (first :: (List.intercalate [.comma] tss ++ [last])) :=
  ((spells_intercalate h).append_mark hclose spells_nil).mark_cons hopen

theorem forall₂_spells_items {items : List Json} (each : ∀ item ∈ items, Spells item.spelling item.tokens) :
    List.Forall₂ Spells (spellings items) (itemTokens items) := by
  induction items with
  | nil => exact .nil
  | cons item items ih =>
    have hitems := ih fun other hother => each other (List.mem_cons_of_mem item hother)
    exact .cons (each item List.mem_cons_self) hitems

theorem forall₂_spells_members {members : List (String × Json)}
    (each : ∀ m ∈ members, Spells m.2.spelling m.2.tokens) :
    List.Forall₂ Spells (memberSpellings members) (memberTokens members) := by
  induction members with
  | nil => exact .nil
  | cons m members ih =>
    obtain ⟨name, value⟩ := m
    have hmembers := ih fun other hother => each other (List.mem_cons_of_mem _ hother)
    have hvalue := each (name, value) List.mem_cons_self
    exact .cons ((spells_quotedAscii name).append_mark rfl hvalue) hmembers

theorem spells_spelling {room : Nat} {document : Json} (fits : document.Fits room)
    (legible : document.Legible) : Spells document.spelling document.tokens := by
  induction fits with
  | null => exact spells_word (by decide) (List.all_eq_true.mp rfl) rfl
  | bool b => cases b <;> exact spells_word (by decide) (List.all_eq_true.mp rfl) rfl
  | int =>
    cases legible with
    | int readable => exact spells_integerDigits readable
  | float x => cases legible
  | string s => exact spells_quotedAscii s
  | emptyArray => exact spells_bracketed rfl rfl .nil
  | emptyObject => exact spells_bracketed rfl rfl .nil
  | array _ ih =>
    cases legible with
    | array each => exact spells_bracketed rfl rfl (forall₂_spells_items fun item h => ih item h (each item h))
  | object _ _ ih =>
    cases legible with
    | object each => exact spells_bracketed rfl rfl (forall₂_spells_members fun m h => ih m h (each m h))

/-- A legible document that is within the limits is read back from its spelling. -/
theorem read?_spelling {document : Json} (fits : document.Fits depthLimit) (legible : document.Legible) :
    read? document.spelling = some document := by
  rw [read?, tokens?_of_spells (spells_spelling fits legible), Option.bind_some,
    Reading.finish?_tokens fits]

end Documents

end EventDelivery.Json

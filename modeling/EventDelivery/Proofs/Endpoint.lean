import EventDelivery.Proofs.Restoration
import Mathlib

/-! Endpoints that settings hold. The check cleans an address before it looks at it, and the address is held as it was
given: what is an address of http or https is the cleaned text. The text that is held is one itself exactly when
nothing was taken away from its opening, the part up to the authority. -/

namespace EventDelivery
set_option autoImplicit false

namespace Text
variable {separator : CodePoint} {t before rest : Text}

theorem cut_eq_some_iff :
    cut separator t = (before, some rest) ↔ t = before ++ separator :: rest ∧ separator ∉ before := by
  constructor
  · intro h
    unfold cut at h
    split at h
    · cases h
    · rename_i p rest' hdrop
      obtain ⟨rfl, hrest⟩ := Prod.mk.inj h
      obtain rfl := Option.some.inj hrest
      have hp : p = separator := by
        have hnot := List.head?_dropWhile_not (· ≠ separator) t
        rw [hdrop] at hnot
        simpa using hnot
      subst hp
      constructor
      · rw [← hdrop, List.takeWhile_append_dropWhile]
      · intro hmem
        simpa using List.mem_takeWhile_imp hmem
  · rintro ⟨rfl, hnot⟩
    have hbefore : ∀ p ∈ before, decide (p ≠ separator) = true := by
      intro p hp
      rw [decide_eq_true_iff]
      rintro rfl
      exact hnot hp
    have hdrop : (before ++ separator :: rest).dropWhile (· ≠ separator) = separator :: rest := by
      rw [List.dropWhile_append_of_pos hbefore, List.dropWhile_cons_of_neg (by simp)]
    have htake : (before ++ separator :: rest).takeWhile (· ≠ separator) = before := by
      rw [List.takeWhile_append_of_pos hbefore, List.takeWhile_cons_of_neg (by simp), List.append_nil]
    rw [cut, hdrop, htake]

end Text

namespace Endpoint

def IsScheme (name : List Char) : Prop :=
  name.map Char.toLower = "http".toList ∨ name.map Char.toLower = "https".toList

def endMarks : List CodePoint := [.char '/', .char '?', .char '#']

/-- Text that begins with a scheme, a colon, two slashes, and something of an authority. -/
def IsHttp (t : Text) : Prop :=
  ∃ (name : List Char) (p : CodePoint) (rest : Text), IsScheme name ∧ p ∉ endMarks ∧
    t = Text.ofList (name ++ "://".toList) ++ p :: rest

section Schemes
variable {name : List Char} {t rest : Text}

theorem ofList_scheme_append (name : List Char) (t : Text) : Text.ofList (name ++ "://".toList) ++ t
    = Text.ofList name ++ .char ':' :: .char '/' :: .char '/' :: t := by
  simp [Text.ofList]

theorem isAlpha_of_isScheme (h : IsScheme name) {c : Char} (hc : c ∈ name) : c.isAlpha := by
  have hlower : c.toLower ∈ "https".toList := by
    have hmem : c.toLower ∈ name.map Char.toLower := List.mem_map_of_mem hc
    rcases h with h | h
    · rw [h] at hmem
      exact List.mem_append_left ['s'] hmem
    · rwa [h] at hmem
  have hletters : "https".toList.all Char.isAlpha = true := by decide
  rw [← Char.isAlpha_toLower_eq_isAlpha]
  exact List.all_eq_true.mp hletters _ hlower

theorem isSchemeCharacter_of_isAlpha {c : Char} (h : c.isAlpha) : isSchemeCharacter c := by
  simp [isSchemeCharacter, Char.isAlphanum, h]

theorem ne_nil_of_isScheme (h : IsScheme name) : name ≠ [] := by
  rintro rfl
  rcases h with h | h <;> cases h

theorem scheme_eq_iff {lower : List Char} (hne : lower ≠ []) :
    scheme t = (lower, rest) ↔ ∃ name : List Char, t = Text.ofList name ++ .char ':' :: rest ∧
      name.map Char.toLower = lower ∧ name.head?.any Char.isAlpha ∧ name.all isSchemeCharacter := by
  constructor
  · intro h
    unfold scheme at h
    split at h
    · rename_i before rest' hcut
      split at h
      · rename_i name hname
        split at h
        · rename_i hletters
          obtain ⟨rfl, rfl⟩ := Prod.mk.inj h
          obtain ⟨ht, -⟩ := Text.cut_eq_some_iff.mp hcut
          obtain rfl := Text.eq_ofList_of_chars? hname
          rw [Bool.and_eq_true] at hletters
          exact ⟨name, ht, rfl, hletters.1, hletters.2⟩
        · exact absurd (Prod.mk.inj h).1.symm hne
      · exact absurd (Prod.mk.inj h).1.symm hne
    · exact absurd (Prod.mk.inj h).1.symm hne
  · rintro ⟨name, rfl, rfl, hfirst, hall⟩
    have hcolon : CodePoint.char ':' ∉ Text.ofList name := by
      intro hmem
      obtain ⟨c, hc, hcolon⟩ := List.mem_map.mp hmem
      obtain rfl := CodePoint.char.inj hcolon
      exact absurd (List.all_eq_true.mp hall _ hc) (by decide)
    rw [scheme, Text.cut_eq_some_iff.mpr ⟨rfl, hcolon⟩]
    simp only [Text.chars?_ofList, hfirst, hall, Bool.and_self, if_true]

theorem authority?_any_iff :
    (authority? t).any (!·.isEmpty) ↔ ∃ p rest, p ∉ endMarks ∧ t = .char '/' :: .char '/' :: p :: rest := by
  constructor
  · intro h
    unfold authority? at h
    split at h
    · rename_i rest
      cases rest with
      | nil => cases h
      | cons p rest =>
        refine ⟨p, rest, ?_, rfl⟩
        intro hp
        rw [List.takeWhile_cons_of_neg (by simpa [endMarks, imp_iff_not_or, or_assoc] using hp)] at h
        cases h
    · cases h
  · rintro ⟨p, rest, hp, rfl⟩
    have hstays : p ≠ .char '/' ∧ p ≠ .char '?' ∧ p ≠ .char '#' := by simpa [endMarks] using hp
    simp [authority?, hstays]

theorem isHttp_iff : IsHttp t ↔
    ((scheme t).1 = "http".toList ∨ (scheme t).1 = "https".toList) ∧
      (authority? (scheme t).2).any (!·.isEmpty) := by
  rw [authority?_any_iff]
  constructor
  · rintro ⟨name, p, rest, hname, hp, rfl⟩
    have hfirst : name.head?.any Char.isAlpha := by
      obtain ⟨c, cs, rfl⟩ := List.exists_cons_of_ne_nil (ne_nil_of_isScheme hname)
      exact isAlpha_of_isScheme hname List.mem_cons_self
    have hall : name.all isSchemeCharacter :=
      List.all_eq_true.mpr fun c hc => isSchemeCharacter_of_isAlpha (isAlpha_of_isScheme hname hc)
    have hne : name.map Char.toLower ≠ [] := fun hnil => ne_nil_of_isScheme hname (List.map_eq_nil_iff.mp hnil)
    have hscheme : scheme (Text.ofList (name ++ "://".toList) ++ p :: rest)
        = (name.map Char.toLower, .char '/' :: .char '/' :: p :: rest) :=
      (scheme_eq_iff hne).mpr ⟨name, ofList_scheme_append name _, rfl, hfirst, hall⟩
    rw [hscheme]
    exact ⟨hname, p, rest, hp, rfl⟩
  · rintro ⟨hname, p, rest, hp, hrest⟩
    have hne : (scheme t).1 ≠ [] := by
      intro hnil
      rw [hnil] at hname
      rcases hname with h | h <;> cases h
    obtain ⟨name, ht, hlower, -⟩ := (@scheme_eq_iff t (scheme t).2 _ hne).mp rfl
    rw [← hlower] at hname
    refine ⟨name, p, rest, hname, hp, ?_⟩
    rw [ofList_scheme_append, ← hrest]
    exact ht

/-- The check passes the text that is an address once it is cleaned, if nothing is wrong with the authority. -/
theorem fault?_eq_none_iff : fault? t = none ↔ IsHttp (cleaned t) ∧
    ∀ authority, authority? (scheme (cleaned t)).2 = some authority → authorityFault? authority = none := by
  rw [isHttp_iff, fault?, Option.or_eq_none_iff, Option.bind_eq_none_iff, and_comm]
  refine and_congr_left fun _ => ?_
  constructor
  · intro h
    by_contra hnot
    rw [if_neg hnot] at h
    cases h
  · exact fun h => if_pos h

end Schemes

/-- Text up to the slash of the given number and with it; all of it if there are fewer. -/
def throughSlash : Nat → Text → Text
  | 0, _ => []
  | _ + 1, [] => []
  | n + 1, p :: t => p :: throughSlash (if p = .char '/' then n else n + 1) t

/-- The part of an address in front of its authority. -/
def opening (t : Text) : Text := throughSlash 2 t

/-- Nothing of the opening is taken away when the text is cleaned. -/
structure KeepsOpening (t : Text) : Prop where
  first : ∀ p ∈ t.head?, isControlOrSpace p = false
  inside : ∀ p ∈ opening t, isLineSpace p = false

section Openings
variable {t : Text} {n : Nat}

theorem throughSlash_prefix (n : Nat) (t : Text) : throughSlash n t <+: t := by
  induction t generalizing n with
  | nil => cases n <;> exact List.nil_prefix
  | cons p t ih =>
    cases n with
    | zero => exact List.nil_prefix
    | succ n => exact List.prefix_cons_inj p |>.mpr (ih _)

theorem throughSlash_filter {keep : CodePoint → Bool} (h : ∀ p ∈ throughSlash n t, keep p) :
    throughSlash n (t.filter keep) = throughSlash n t := by
  induction t generalizing n with
  | nil => rfl
  | cons p t ih =>
    cases n with
    | zero => simp only [throughSlash]
    | succ n =>
      rw [throughSlash, List.forall_mem_cons] at h
      rw [List.filter_cons_of_pos h.1, throughSlash, throughSlash, ih h.2]

theorem throughSlash_append {before : Text} (h : .char '/' ∉ before) :
    throughSlash (n + 1) (before ++ t) = before ++ throughSlash (n + 1) t := by
  induction before with
  | nil => rfl
  | cons p before ih =>
    rw [List.mem_cons, not_or] at h
    rw [List.cons_append, throughSlash, if_neg (Ne.symm h.1), ih h.2, List.cons_append]

theorem opening_address {name : List Char} (h : IsScheme name) (t : Text) :
    opening (Text.ofList (name ++ "://".toList) ++ t) = Text.ofList (name ++ "://".toList) := by
  have hslash : CodePoint.char '/' ∉ Text.ofList name := by
    intro hmem
    obtain ⟨c, hc, hslash⟩ := List.mem_map.mp hmem
    obtain rfl := CodePoint.char.inj hslash
    exact absurd (isAlpha_of_isScheme h hc) (by decide)
  have hwhole := ofList_scheme_append name []
  rw [List.append_nil] at hwhole
  rw [ofList_scheme_append, opening, throughSlash_append hslash, hwhole]
  simp [throughSlash]

theorem isControlOrSpace_of_isLineSpace {p : CodePoint} (h : isLineSpace p) : isControlOrSpace p := by
  simp only [isLineSpace, Bool.or_eq_true, decide_eq_true_eq] at h
  rcases h with (rfl | rfl) | rfl <;> decide

theorem lt_toNat_of_isAlpha {c : Char} (h : c.isAlpha) : 0x20 < c.toNat := by
  simp only [Char.isAlpha, Char.isUpper, Char.isLower, Bool.or_eq_true, Bool.and_eq_true, decide_eq_true_eq,
    ge_iff_le, UInt32.le_iff_toNat_le, Char.toNat_val, Char.reduceToNat] at h
  omega

theorem isControlOrSpace_address {name : List Char} (h : IsScheme name) {p : CodePoint}
    (hp : p ∈ Text.ofList (name ++ "://".toList)) : isControlOrSpace p = false := by
  have hmarks : "://".toList.all (0x20 < ·.toNat) = true := by decide
  obtain ⟨c, hc, rfl⟩ := List.mem_map.mp hp
  have hlarge : 0x20 < c.toNat := by
    rcases List.mem_append.mp hc with hc | hc
    · exact lt_toNat_of_isAlpha (isAlpha_of_isScheme h hc)
    · exact of_decide_eq_true (List.all_eq_true.mp hmarks c hc)
  exact decide_eq_false (Nat.not_le_of_lt hlarge)

theorem keepsOpening_of_isHttp (h : IsHttp t) : KeepsOpening t := by
  obtain ⟨name, p, rest, hname, -, rfl⟩ := h
  constructor
  · obtain ⟨c, cs, rfl⟩ := List.exists_cons_of_ne_nil (ne_nil_of_isScheme hname)
    intro q hq
    obtain rfl := Option.some.inj hq
    exact isControlOrSpace_address hname List.mem_cons_self
  · intro q hq
    rw [opening_address hname] at hq
    have hcontrol := isControlOrSpace_address hname hq
    cases hline : isLineSpace q with
    | false => rfl
    | true =>
      rw [isControlOrSpace_of_isLineSpace hline] at hcontrol
      cases hcontrol

theorem not_mem_endMarks_of_isLineSpace {p : CodePoint} (h : isLineSpace p) : p ∉ endMarks := by
  intro hp
  simp only [endMarks, List.mem_cons, List.not_mem_nil, or_false] at hp
  rcases hp with rfl | rfl | rfl <;> cases h

/-- Where the cleaned text is an address, the text as it stands is one if nothing of its opening is taken away. -/
theorem isHttp_of_keepsOpening (cleanly : IsHttp (cleaned t)) (keeps : KeepsOpening t) : IsHttp t := by
  obtain ⟨name, p, rest, hname, hp, hcleaned⟩ := cleanly
  -- the opening is the same in the text and in the cleaned one, and only the rest `u` may differ
  obtain ⟨u, hu⟩ := throughSlash_prefix 2 t
  have hkept : ∀ q ∈ throughSlash 2 t, !isLineSpace q := by
    intro q hq
    rw [keeps.inside q hq]
    rfl
  rw [cleaned, dropWhile_eq_self keeps.first] at hcleaned
  have hopening : throughSlash 2 t = Text.ofList (name ++ "://".toList) := by
    rw [← throughSlash_filter hkept, hcleaned]
    exact opening_address hname _
  have hbehind : u.filter (!isLineSpace ·) = p :: rest := by
    rw [← hu, List.filter_append, List.filter_eq_self.mpr hkept, hopening] at hcleaned
    exact List.append_cancel_left hcleaned
  cases u with
  | nil => cases hbehind
  | cons q u =>
    refine ⟨name, q, u, hname, ?_, by rw [← hopening, hu]⟩
    -- the rest begins with what is taken away there, or as the cleaned authority does
    cases hq : isLineSpace q with
    | true => exact not_mem_endMarks_of_isLineSpace hq
    | false =>
      rw [List.filter_cons_of_pos (by rw [hq]; rfl)] at hbehind
      rw [(List.cons.inj hbehind).1]
      exact hp

theorem isHttp_iff_keepsOpening (cleanly : IsHttp (cleaned t)) : IsHttp t ↔ KeepsOpening t :=
  ⟨keepsOpening_of_isHttp, isHttp_of_keepsOpening cleanly⟩

end Openings
end Endpoint

namespace Settings
variable {environment : Environment} {arguments : Field.Given} {settings : Settings} {address : Text}

theorem strip_of_nonBlank {t : Option Text} (h : nonBlank t = some address) : address.strip = address := by
  obtain ⟨hstrip, -⟩ := Option.filter_eq_some_iff.mp h
  obtain ⟨s, -, rfl⟩ := Option.map_eq_some_iff.mp hstrip
  exact Text.strip_strip s

theorem exists_readEndpoint (h : load environment arguments = .ok settings) (held : settings.endpoint = some address) :
    ∃ payload, readEndpoint payload = .ok (some address) := by
  have hread := of_optional (fun endpoint => ∀ address, endpoint = some address →
      ∃ payload, readEndpoint payload = .ok (some address)) (load_eq_ok_iff.mp h).endpoint nofun
    (fun payload _ hread address hsome => ⟨payload, hsome ▸ hread⟩)
  exact hread address held

/-- An endpoint that is held has no blanks at its ends and is an address of http or https once it is cleaned. As it
stands it is one exactly when it keeps its opening: it may begin with control characters, or have tabs and line breaks
in front of its authority, and is no address then. -/
theorem endpoint_is_address (h : load environment arguments = .ok settings) (held : settings.endpoint = some address) :
    (∀ p ∈ address.head?, p.isBlank = false) ∧ (∀ p ∈ address.getLast?, p.isBlank = false) ∧
    Endpoint.IsHttp (Endpoint.cleaned address) ∧
    (Endpoint.IsHttp address ↔ Endpoint.KeepsOpening address) := by
  obtain ⟨payload, hread⟩ := exists_readEndpoint h held
  obtain ⟨t, -, hheld, hfault⟩ := readEndpoint_eq_ok_some_iff.mp hread
  have hstrip := strip_of_nonBlank hheld
  have hhttp : Endpoint.IsHttp (Endpoint.cleaned address) := (Endpoint.fault?_eq_none_iff.mp hfault).1
  refine ⟨?_, ?_, hhttp, Endpoint.isHttp_iff_keepsOpening hhttp⟩
  · rw [← hstrip]
    exact fun _ => eq_false_of_mem_head?_trimEnds
  · rw [← hstrip]
    exact fun _ => eq_false_of_mem_getLast?_trimEnds

section Addresses
variable {name name' value : String}

theorem given?_concat : given? (environment ++ [(name, value)]) [] name'
    = if foldedName name = foldedName name' then some (.text (Text.ofString value))
      else given? environment [] name' := by
  rw [given?, given?, Environment.folded?_append, Environment.folded?_singleton]
  split <;> rfl

theorem load_endpoint (h : load environment [] = .ok settings)
    (hread : readEndpoint (.text (Text.ofString value)) = .ok (some address)) :
    load (environment ++ [(endpointName, value)]) [] = .ok { settings with endpoint := some address } := by
  have loaded := load_eq_ok_iff.mp h
  have hgiven (name : String) (hne : ¬ endpointName.toList.map lowerAscii = name.toList.map lowerAscii) :
      given? (environment ++ [(endpointName, value)]) [] name = given? environment [] name := by
    rw [given?_concat, if_neg (foldedName_eq_iff.not.mpr hne)]
  obtain ⟨region, hregion, hname⟩ := loaded.region
  exact load_eq_ok_iff.mpr {
    region := ⟨region, (hgiven _ (by decide)).trans hregion, hname⟩
    endpoint := by rw [optional, given?_concat, if_pos rfl]; exact hread
    profile := (optional_congr (hgiven _ (by decide)) _ _).trans loaded.profile
    nullKey := (optional_congr (hgiven _ (by decide)) _ _).trans loaded.nullKey
    streamNaming := (optional_congr (hgiven _ (by decide)) _ _).trans loaded.streamNaming
    batchSize := (optional_congr (hgiven _ (by decide)) _ _).trans loaded.batchSize
    known := rfl }

def ofEndpoint (address : Text) : Settings := { ofRegion (Text.ofString "r") with endpoint := some address }

theorem load_regionAndEndpoint (hread : readEndpoint (.text (Text.ofString value)) = .ok (some address)) :
    load [(regionName, "r"), (endpointName, value)] [] = .ok (ofEndpoint address) :=
  load_endpoint (load_region rfl) hread

/-- A scheme in capital letters, with an address in brackets behind it. -/
theorem bracketed_is_address :
    load [(regionName, "r"), (endpointName, " HTTPS://[::1]:4566/x\t")] []
      = .ok (ofEndpoint (Text.ofString "HTTPS://[::1]:4566/x")) ∧
    Endpoint.IsHttp (Text.ofString "HTTPS://[::1]:4566/x") := by
  have hread : readEndpoint (.text (Text.ofString " HTTPS://[::1]:4566/x\t"))
      = .ok (some (Text.ofString "HTTPS://[::1]:4566/x")) := rfl
  have hload := load_regionAndEndpoint hread
  obtain ⟨-, -, -, hkeeps⟩ := endpoint_is_address hload rfl
  exact ⟨hload, hkeeps.mpr ⟨by decide, by decide⟩⟩

/-- An address is held with a tab in its scheme, and with a control character in front of it. -/
theorem spoiled_is_no_address :
    load [(regionName, "r"), (endpointName, "ht\ttp://h")] [] = .ok (ofEndpoint (Text.ofString "ht\ttp://h")) ∧
    ¬ Endpoint.IsHttp (Text.ofString "ht\ttp://h") ∧
    load [(regionName, "r"), (endpointName, "\x01http://h")] [] = .ok (ofEndpoint (Text.ofString "\x01http://h")) ∧
    ¬ Endpoint.IsHttp (Text.ofString "\x01http://h") := by
  refine ⟨load_regionAndEndpoint rfl, ?_, load_regionAndEndpoint rfl, ?_⟩
  · intro h
    exact absurd ((Endpoint.keepsOpening_of_isHttp h).inside (.char '\t')) (by decide)
  · intro h
    exact absurd ((Endpoint.keepsOpening_of_isHttp h).first (.char '\x01') rfl) (by decide)

end Addresses
end Settings
end EventDelivery

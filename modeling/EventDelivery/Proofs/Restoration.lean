import EventDelivery.Proofs.Numeral
import EventDelivery.Proofs.Settings
import EventDelivery.Proofs.Trimming
import Mathlib.Data.List.Nodup

/-! Settings that are written back. What was loaded from an environment is stated by the variables of those
settings that have a value, and loading these gives the same settings again: each reader takes what it gave. -/

namespace EventDelivery
set_option autoImplicit false

namespace Environment
variable {environment environment' before later : Environment} {name : String}

/-- The same variables with the same values, where names are spelled otherwise in capital and small letters. -/
def Respelled (environment environment' : Environment) : Prop :=
  List.Forall₂ (fun b b' => foldedName b'.1 = foldedName b.1 ∧ b'.2 = b.2) environment environment'

theorem folded?_append : folded? (before ++ later) name = (folded? later name).or (folded? before name) := by
  rw [folded?, List.reverse_append, List.find?_append, Option.map_or]
  rfl

theorem folded?_singleton {name' value : String} :
    folded? [(name', value)] name = if foldedName name' = foldedName name then some value else none := by
  by_cases h : foldedName name' = foldedName name <;> simp [folded?, h]

theorem folded?_eq_none_iff :
    folded? environment name = none ↔ ∀ b ∈ environment, foldedName b.1 ≠ foldedName name := by
  simp [folded?]

theorem folded?_cons (b : String × String) (environment : Environment) :
    folded? (b :: environment) name
      = (folded? environment name).or (if foldedName b.1 = foldedName name then some b.2 else none) := by
  rw [← folded?_singleton]
  exact @folded?_append [b] environment name

theorem Respelled.folded? (h : Respelled environment environment') :
    environment'.folded? name = environment.folded? name := by
  unfold Respelled at h
  induction h with
  | nil => rfl
  | cons hb _ ih => rw [folded?_cons, folded?_cons, ih, hb.1, hb.2]

theorem folded?_of_overridden {b : String × String} (h : ∃ b' ∈ later, foldedName b'.1 = foldedName b.1) :
    folded? (before ++ b :: later) name = folded? (before ++ later) name := by
  rw [folded?_append, folded?_append, folded?_cons]
  by_cases hname : foldedName b.1 = foldedName name
  · obtain ⟨b', hb', hspelled⟩ := h
    have hlater : folded? later name ≠ none :=
      fun hnone => folded?_eq_none_iff.mp hnone b' hb' (hspelled.trans hname)
    obtain ⟨value, hvalue⟩ := Option.ne_none_iff_exists'.mp hlater
    rw [hvalue]
    rfl
  · rw [if_neg hname, Option.or_none]

theorem folded?_of_mem (distinct : (environment.map fun b => foldedName b.1).Nodup) {value : String}
    (h : (name, value) ∈ environment) : folded? environment name = some value := by
  induction environment with
  | nil => cases h
  | cons b environment ih =>
    rw [List.map_cons, List.nodup_cons] at distinct
    rw [folded?_cons]
    rcases List.mem_cons.mp h with rfl | h
    · have hothers : folded? environment name = none :=
        folded?_eq_none_iff.mpr fun b hb heq => distinct.1 (List.mem_map.mpr ⟨b, hb, heq⟩)
      rw [hothers, if_pos rfl]
      rfl
    · rw [ih distinct.2 h]
      rfl

end Environment

namespace Settings

section Readers
variable {payload : Payload}

theorem readRegion_eq_ok_iff {region : Text} :
    readRegion payload = .ok region ↔ ∃ t, Field.text payload = .ok t ∧ t.strip = region ∧ region.isEmpty = false := by
  rw [readRegion, bind_eq_ok_iff]
  refine exists_congr fun t => and_congr_right fun _ => ?_
  dsimp only
  cases hempty : t.strip.isEmpty with
  | true =>
    rw [if_pos rfl]
    constructor
    · intro h
      cases h
    · rintro ⟨rfl, hregion⟩
      rw [hregion] at hempty
      cases hempty
  | false =>
    rw [if_neg Bool.false_ne_true]
    constructor
    · intro h
      obtain rfl := Except.ok.inj h
      exact ⟨rfl, hempty⟩
    · rintro ⟨rfl, -⟩
      rfl

theorem readRegion_text {region : Text} (h : readRegion payload = .ok region) :
    readRegion (.text region) = .ok region := by
  obtain ⟨t, -, rfl, hregion⟩ := readRegion_eq_ok_iff.mp h
  exact readRegion_eq_ok_iff.mpr ⟨t.strip, rfl, Text.strip_strip t, hregion⟩

theorem nonBlank_of_eq_some {t : Option Text} {held : Text} (h : nonBlank t = some held) :
    nonBlank (some held) = some held := by
  obtain ⟨hstrip, hheld⟩ := Option.filter_eq_some_iff.mp h
  obtain ⟨s, -, rfl⟩ := Option.map_eq_some_iff.mp hstrip
  rw [nonBlank, Option.map_some, Text.strip_strip]
  exact Option.filter_eq_some_iff.mpr ⟨rfl, hheld⟩

theorem nonBlank_nonBlank (t : Option Text) : nonBlank (nonBlank t) = nonBlank t := by
  cases h : nonBlank t with
  | none => rfl
  | some held => exact nonBlank_of_eq_some h

theorem readEndpoint_eq_ok_some_iff {address : Text} :
    readEndpoint payload = .ok (some address) ↔
      ∃ t, Field.optionalText payload = .ok t ∧ nonBlank t = some address ∧ Endpoint.fault? address = none := by
  rw [readEndpoint, bind_eq_ok_iff]
  refine exists_congr fun t => and_congr_right fun _ => ?_
  cases nonBlank t with
  | none => simp [pure, Except.pure]
  | some held =>
    dsimp only
    cases hfault : Endpoint.fault? held with
    | none =>
      constructor
      · intro h
        obtain rfl := Option.some.inj (Except.ok.inj h)
        exact ⟨rfl, hfault⟩
      · rintro ⟨hheld, -⟩
        exact congrArg Except.ok hheld
    | some fault =>
      constructor
      · intro h
        cases h
      · rintro ⟨hheld, hnone⟩
        obtain rfl := Option.some.inj hheld
        rw [hnone] at hfault
        cases hfault

theorem readEndpoint_text {address : Text} (h : readEndpoint payload = .ok (some address)) :
    readEndpoint (.text address) = .ok (some address) := by
  obtain ⟨t, -, hheld, hfault⟩ := readEndpoint_eq_ok_some_iff.mp h
  exact readEndpoint_eq_ok_some_iff.mpr ⟨some address, rfl, nonBlank_of_eq_some hheld, hfault⟩

theorem readProfile_text {profile : Text} (h : readProfile payload = .ok (some profile)) :
    readProfile (.text profile) = .ok (some profile) := by
  obtain ⟨t, -, hheld⟩ := map_eq_ok_iff.mp h
  exact map_eq_ok_iff.mpr ⟨some profile, rfl, nonBlank_of_eq_some hheld⟩

theorem text_of_readNullKey {key : Text} (h : readNullKey payload = .ok key) : Field.text payload = .ok key := by
  obtain ⟨t, ht, h⟩ := bind_eq_ok_iff.mp h
  split at h
  · cases h
  · split at h
    · cases h
    · rwa [← Except.ok.inj h]

theorem readNullKey_text {key : Text} (h : readNullKey payload = .ok key) :
    readNullKey (.text key) = .ok key := by
  have htext := text_of_readNullKey h
  rwa [readNullKey, htext] at h

theorem eq_text_of_readStreamNaming {mode : Text} (h : readStreamNaming payload = .ok mode) :
    payload = .text mode := by
  cases payload with
  | text t =>
    rw [readStreamNaming] at h
    split at h
    · cases h
    · split at h
      · rw [Except.ok.inj h]
      · cases h
  | _ => cases h

theorem readBatchSize_integerDigits {t : Text} {size : Int} (h : readBatchSize (.text t) = .ok size) :
    readBatchSize (.text (Text.ofList (integerDigits size))) = .ok size := by
  obtain ⟨n, hn, h⟩ := bind_eq_ok_iff.mp h
  have hsize : size = n := by
    split at h
    · cases h
    · exact (Except.ok.inj h).symm
  rw [← hsize] at h hn
  exact bind_eq_ok_iff.mpr ⟨size, Field.integer_integerDigits (Field.withinDigitLimit_of_integer_text hn), h⟩

end Readers

/-- What is stated of a setting is a string, from which the setting is read again; where nothing is stated the
setting is its default. -/
structure ReadBack {α : Type} (read : Payload → Except IssueCause α) (default a : α) (stated : Option Text) : Prop where
  string : ∀ t, stated = some t → ∃ s : String, t = Text.ofString s
  reads : ∀ t, stated = some t → read (.text t) = .ok a
  absent : stated = none → a = default

theorem ReadBack.of_some {α : Type} {read : Payload → Except IssueCause α} {default a : α} {t : Text}
    (string : ∃ s : String, t = Text.ofString s) (reads : read (.text t) = .ok a) :
    ReadBack read default a (some t) where
  string _ h := Option.some.inj h ▸ string
  reads _ h := Option.some.inj h ▸ reads
  absent := nofun

section Environments
variable {environment : Environment} {settings : Settings} {name : String} {value : String}

theorem exists_of_given? {payload : Payload} (h : given? environment [] name = some payload) :
    ∃ value : String, payload = .text (Text.ofString value) := by
  obtain ⟨value, -, rfl⟩ := Option.map_eq_some_iff.mp h
  exact ⟨value, rfl⟩

theorem of_optional_environment {α : Type} (P : α → Prop) {default a : α} {read : Payload → Except IssueCause α}
    (h : optional environment [] name default read = .ok a) (hdefault : P default)
    (hread : ∀ (value : String) (b : α), read (.text (Text.ofString value)) = .ok b → P b) : P a := by
  unfold optional at h
  split at h
  · rename_i payload hgiven
    obtain ⟨value, rfl⟩ := exists_of_given? hgiven
    exact hread value a h
  · exact Except.ok.inj h ▸ hdefault

theorem optional_of_readBack {α : Type} {default a : α} {read : Payload → Except IssueCause α}
    {stated : Option Text} (back : ReadBack read default a stated)
    (given : given? environment [] name = stated.map .text) : optional environment [] name default read = .ok a := by
  rw [optional, given]
  cases hstated : stated with
  | none =>
    rw [back.absent hstated]
    rfl
  | some t => exact back.reads t hstated

theorem exists_of_readRegion {region : Text} (h : readRegion (.text (Text.ofString value)) = .ok region) :
    ∃ s : String, region = Text.ofString s := by
  obtain ⟨t, ht, rfl, -⟩ := readRegion_eq_ok_iff.mp h
  obtain rfl := Except.ok.inj ht
  exact Text.exists_strip_ofString value

theorem exists_of_nonBlank {held : Text} (h : nonBlank (some (Text.ofString value)) = some held) :
    ∃ s : String, held = Text.ofString s := by
  obtain ⟨hstrip, -⟩ := Option.filter_eq_some_iff.mp h
  obtain rfl := Option.some.inj hstrip
  exact Text.exists_strip_ofString value

theorem readBack_of_held {held? : Option Text} {read : Payload → Except IssueCause (Option Text)}
    (h : optional environment [] name none read = .ok held?)
    (string : ∀ (value : String) (held : Text), read (.text (Text.ofString value)) = .ok (some held) →
      ∃ s : String, held = Text.ofString s)
    (reads : ∀ (payload : Payload) (held : Text), read payload = .ok (some held) →
      read (.text held) = .ok (some held)) : ReadBack read none held? held? := by
  apply of_optional_environment (fun held? => ReadBack read none held? held?) h
  · exact ⟨nofun, nofun, fun _ => rfl⟩
  · intro value held? h
    refine ⟨?_, ?_, id⟩
    · rintro held rfl
      exact string value held h
    · rintro held rfl
      exact reads _ held h

theorem readBack_endpoint {endpoint : Option Text}
    (h : optional environment [] endpointName none readEndpoint = .ok endpoint) :
    ReadBack readEndpoint none endpoint endpoint := by
  refine readBack_of_held h ?_ (fun _ _ => readEndpoint_text)
  intro value address haddress
  obtain ⟨t, ht, hheld, -⟩ := readEndpoint_eq_ok_some_iff.mp haddress
  obtain rfl := Except.ok.inj ht
  exact exists_of_nonBlank hheld

theorem readBack_profile {profile : Option Text}
    (h : optional environment [] profileName none readProfile = .ok profile) :
    ReadBack readProfile none profile profile := by
  refine readBack_of_held h ?_ (fun _ _ => readProfile_text)
  intro value held hread
  obtain ⟨t, ht, hheld⟩ := map_eq_ok_iff.mp hread
  obtain rfl := Except.ok.inj ht
  exact exists_of_nonBlank hheld

theorem readBack_nullKey {key : Text}
    (h : optional environment [] nullKeyName defaultNullKey readNullKey = .ok key) :
    ReadBack readNullKey defaultNullKey key (some key) := by
  apply of_optional_environment (fun key => ReadBack readNullKey defaultNullKey key (some key)) h
  · exact .of_some ⟨"default", rfl⟩ rfl
  · intro value key h
    exact .of_some ⟨value, (Except.ok.inj (text_of_readNullKey h)).symm⟩ (readNullKey_text h)

theorem readBack_streamNaming {mode : Text}
    (h : optional environment [] streamNamingName (Text.ofString "identity") readStreamNaming = .ok mode) :
    ReadBack readStreamNaming (Text.ofString "identity") mode (some mode) := by
  apply of_optional_environment (fun mode => ReadBack readStreamNaming (Text.ofString "identity") mode (some mode)) h
  · exact .of_some ⟨"identity", rfl⟩ rfl
  · intro value mode h
    obtain rfl := Payload.text.inj (eq_text_of_readStreamNaming h)
    exact .of_some ⟨value, rfl⟩ h

theorem readBack_batchSize {size : Int}
    (h : optional environment [] batchSizeName 2048 readBatchSize = .ok size) :
    ReadBack readBatchSize 2048 size (some (Text.ofList (integerDigits size))) := by
  have hstring (n : Int) : ∃ s : String, Text.ofList (integerDigits n) = Text.ofString s :=
    ⟨String.ofList (integerDigits n), by rw [Text.ofString, String.toList_ofList]⟩
  apply of_optional_environment
    (fun size => ReadBack readBatchSize 2048 size (some (Text.ofList (integerDigits size)))) h
  · exact .of_some (hstring 2048) rfl
  · intro value size h
    exact .of_some (hstring size) (readBatchSize_integerDigits h)

/-! What is stated of settings, and the environments that state it. -/

/-- The variables of the settings, each with its value if it has one. -/
def stated (settings : Settings) : List (String × Option Text) :=
  [(regionName, some settings.region), (endpointName, settings.endpoint), (profileName, settings.profile),
    (nullKeyName, some settings.nullKey), (streamNamingName, some settings.streamNaming),
    (batchSizeName, some (Text.ofList (integerDigits settings.batchSize)))]

def variablesOf (settings : Settings) : List (String × Text) :=
  settings.stated.filterMap fun (name, value?) => value?.map (name, ·)

/-- The environment holds these variables and no others, in any order. -/
def WrittenTo (settings : Settings) (environment : Environment) : Prop :=
  (environment.map fun (name, value) => (name, Text.ofString value)).Perm settings.variablesOf

theorem nodup_stated : (settings.stated.map fun v => foldedName v.1).Nodup := by
  have hletters : (names.map fun name => name.toList.map lowerAscii).Nodup := by decide
  have hnames : (names.map foldedName).map String.toList = names.map fun name => name.toList.map lowerAscii := by
    rw [List.map_map]
    exact List.map_congr_left fun name _ => String.toList_map
  exact List.Nodup.of_map String.toList (hnames ▸ hletters)

theorem mem_variablesOf_iff {t : Text} : (name, t) ∈ settings.variablesOf ↔ (name, some t) ∈ settings.stated := by
  rw [variablesOf, List.mem_filterMap]
  constructor
  · rintro ⟨⟨name', value?⟩, hstated, hvalue⟩
    obtain ⟨t', rfl, heq⟩ := Option.map_eq_some_iff.mp hvalue
    obtain ⟨rfl, rfl⟩ := Prod.mk.inj heq
    exact hstated
  · intro h
    exact ⟨_, h, rfl⟩

theorem nodup_of_writtenTo (written : settings.WrittenTo environment) :
    (environment.map fun b => foldedName b.1).Nodup := by
  have hsublist (vs : List (String × Option Text)) :
      ((vs.filterMap fun (name, value?) => value?.map (name, ·)).map fun v => foldedName v.1).Sublist
        (vs.map fun v => foldedName v.1) := by
    induction vs with
    | nil => exact .slnil
    | cons v vs ih =>
      obtain ⟨name, value?⟩ := v
      cases value? with
      | none => exact ih.cons _
      | some value => exact ih.cons_cons _
  have hperm := written.map fun v : String × Text => foldedName v.1
  rw [List.map_map] at hperm
  exact hperm.nodup_iff.mpr (nodup_stated.sublist (hsublist settings.stated))

theorem given?_of_writtenTo (written : settings.WrittenTo environment) :
    ∀ v ∈ settings.stated, given? environment [] v.1 = v.2.map .text := by
  rintro ⟨name, value?⟩ h
  have hmem (name : String) (t : Text) :
      (name, some t) ∈ settings.stated ↔ ∃ value, (name, value) ∈ environment ∧ Text.ofString value = t := by
    rw [← mem_variablesOf_iff, ← written.mem_iff, List.mem_map]
    simp
  cases value? with
  | some t =>
    obtain ⟨value, hvalue, rfl⟩ := (hmem name t).mp h
    have hfound := Environment.folded?_of_mem (nodup_of_writtenTo written) hvalue
    rw [given?, hfound]
    rfl
  | none =>
    have habsent : environment.folded? name = none := by
      rw [Environment.folded?_eq_none_iff]
      rintro ⟨name', value⟩ hvalue hspelled
      -- a variable under this name would be stated twice, with a value and without
      have hstated := (hmem name' _).mpr ⟨value, hvalue, rfl⟩
      cases List.inj_on_of_nodup_map nodup_stated hstated h hspelled
    rw [given?, habsent]
    rfl

theorem exists_writtenTo (strings : ∀ v ∈ settings.stated, ∀ t, v.2 = some t → ∃ s : String, t = Text.ofString s) :
    ∃ environment, settings.WrittenTo environment := by
  refine ⟨settings.variablesOf.map fun (name, t) => (name, t.toString?.getD ""), ?_⟩
  rw [WrittenTo, List.map_map]
  have hback : settings.variablesOf.map (fun v => (v.1, Text.ofString (v.2.toString?.getD "")))
      = settings.variablesOf.map id := by
    refine List.map_congr_left ?_
    rintro ⟨name, t⟩ h
    obtain ⟨s, rfl⟩ := strings _ (mem_variablesOf_iff.mp h) t rfl
    rw [Text.toString?_ofString]
    rfl
  rw [List.map_id] at hback
  exact .of_eq hback

/-- Loading looks names up and does nothing else with an environment. -/
theorem load_congr {environment' : Environment} (h : ∀ name, environment'.folded? name = environment.folded? name)
    (arguments : Field.Given) : load environment' arguments = load environment arguments := by
  have hgiven : given? environment' arguments = given? environment arguments :=
    funext fun name => by rw [given?, given?, h]
  simp only [load, optional, hgiven]

end Environments

/-- Settings that were loaded from an environment are loaded again from the variables that state them. How the names
were spelled does not matter, and of several spellings the last one counts. -/
theorem load_written_back :
    (∀ (environment : Environment) (settings : Settings), load environment [] = .ok settings →
      (∃ restored, settings.WrittenTo restored) ∧
      ∀ restored, settings.WrittenTo restored → load restored [] = .ok settings) ∧
    (∀ (environment environment' : Environment) (arguments : Field.Given),
      environment.Respelled environment' → load environment' arguments = load environment arguments) ∧
    (∀ (before later : Environment) (b : String × String) (arguments : Field.Given),
      (∃ b' ∈ later, foldedName b'.1 = foldedName b.1) →
      load (before ++ b :: later) arguments = load (before ++ later) arguments) ∧
    (∀ t : Text, t.strip.strip = t.strip) ∧ (∀ t : Option Text, nonBlank (nonBlank t) = nonBlank t) ∧
    ∀ (payload : Payload) (address : Text), readEndpoint payload = .ok (some address) →
      readEndpoint (.text address) = .ok (some address) := by
  refine ⟨?_, ?_, ?_, Text.strip_strip, nonBlank_nonBlank, fun _ _ => readEndpoint_text⟩
  · intro environment settings h
    have loaded := load_eq_ok_iff.mp h
    have hendpoint := readBack_endpoint loaded.endpoint
    have hprofile := readBack_profile loaded.profile
    have hnullKey := readBack_nullKey loaded.nullKey
    have hstreamNaming := readBack_streamNaming loaded.streamNaming
    have hbatchSize := readBack_batchSize loaded.batchSize
    obtain ⟨payload, hgiven, hregion⟩ := loaded.region
    constructor
    · obtain ⟨value, rfl⟩ := exists_of_given? hgiven
      have hstring : ∀ t, some settings.region = some t → ∃ s : String, t = Text.ofString s :=
        fun t ht => Option.some.inj ht ▸ exists_of_readRegion hregion
      apply exists_writtenTo
      simp only [stated, List.forall_mem_cons]
      exact ⟨hstring, hendpoint.string, hprofile.string, hnullKey.string, hstreamNaming.string,
        hbatchSize.string, List.forall_mem_nil _⟩
    · intro restored written
      have hgivens := given?_of_writtenTo written
      simp only [stated, List.forall_mem_cons] at hgivens
      obtain ⟨hregion', hendpoint', hprofile', hnullKey', hstreamNaming', hbatchSize', -⟩ := hgivens
      exact load_eq_ok_iff.mpr {
        region := ⟨_, hregion', readRegion_text hregion⟩
        endpoint := optional_of_readBack hendpoint hendpoint'
        profile := optional_of_readBack hprofile hprofile'
        nullKey := optional_of_readBack hnullKey hnullKey'
        streamNaming := optional_of_readBack hstreamNaming hstreamNaming'
        batchSize := optional_of_readBack hbatchSize hbatchSize'
        known := rfl }
  · intro environment environment' arguments respelled
    exact load_congr (fun name => respelled.folded?) arguments
  · intro before later b arguments overridden
    exact load_congr (fun name => Environment.folded?_of_overridden overridden) arguments

section Spelled

/-- Blanks around values, and a numeral that is spelled at length. -/
def spelled : Environment :=
  [("Aws_Region", "\u00a0r\x1f"), ("KINESIS_ENDPOINT", "HTTP://h "), ("CLI_BATCH_SIZE", " +0_07.0")]

def spelledSettings : Settings := ⟨"r", some "HTTP://h", none, "default", "identity", 7⟩

def restoredVariables : Environment :=
  [("KINESIS_ENDPOINT", "HTTP://h"), ("AWS_REGION", "r"), ("KINESIS_NULL_KEY", "default"),
    ("KINESIS_STREAM_NAME_MODE", "identity"), ("CLI_BATCH_SIZE", "7")]

theorem given?_eq_letters {environment : Environment} {name : String} :
    given? environment [] name
      = (environment.reverse.find? fun b => b.1.toList.map lowerAscii = name.toList.map lowerAscii).map
          fun b => .text (Text.ofString b.2) := by
  simp only [given?, argument?, Environment.folded?, foldedName_eq_iff, List.find?_nil, Option.map_none, Option.none_or,
    Option.map_map]
  rfl

theorem load_spelled : load spelled [] = .ok spelledSettings :=
  load_eq_ok_iff.mpr {
    region := ⟨.text (Text.ofString "\u00a0r\x1f"), by rw [given?_eq_letters]; rfl, rfl⟩
    endpoint := by rw [optional, given?_eq_letters]; rfl
    profile := by rw [optional, given?_eq_letters]; rfl
    nullKey := by rw [optional, given?_eq_letters]; rfl
    streamNaming := by rw [optional, given?_eq_letters]; rfl
    batchSize := by rw [optional, given?_eq_letters]; rfl
    known := rfl }

theorem writtenTo_restoredVariables : spelledSettings.WrittenTo restoredVariables := .swap _ _ _

/-- The settings are the same where they are written back, and where an earlier spelling of a name is overridden. -/
theorem spelled_written_back :
    load spelled [] = .ok spelledSettings ∧ spelledSettings.WrittenTo restoredVariables ∧
    load restoredVariables [] = .ok spelledSettings ∧
    load (("aws_region", "x") :: spelled) [] = .ok spelledSettings := by
  obtain ⟨hback, -, hoverridden, -⟩ := load_written_back
  have hspelled : foldedName "Aws_Region" = foldedName "aws_region" := foldedName_eq_iff.mpr (by decide)
  have hregion := hoverridden [] spelled ("aws_region", "x") [] ⟨_, List.mem_cons_self, hspelled⟩
  exact ⟨load_spelled, writtenTo_restoredVariables,
    (hback spelled spelledSettings load_spelled).2 restoredVariables writtenTo_restoredVariables,
    hregion.trans load_spelled⟩

end Spelled

end Settings

end EventDelivery

import EventDelivery.Proofs.Run

/-! The level of the root logger goes by a name in capital letters. The name of a level stands for it and any other
name for INFO, but two names stand for something that is no level, and with these neither logging nor a run begins. -/

namespace EventDelivery
set_option autoImplicit false

section Capitals
variable {f g : Char → List Char} {cs : List Char} {value name : String}

def isAscii (cs : List Char) : Bool := cs.all (·.toNat < 0x80)

/-- Two case mappings that differ only where neither form is ASCII. `upperAscii` leaves most characters as they are and
agrees in this way with the mapping of all characters. -/
def AgreeInAscii (f g : Char → List Char) : Prop :=
  ∀ c, f c = g c ∨ isAscii (f c) = false ∧ isAscii (g c) = false

def capitals (upper : Char → List Char) (value : String) : String := String.ofList (value.toList.flatMap upper)

theorem AgreeInAscii.symm (agree : AgreeInAscii f g) : AgreeInAscii g f :=
  fun c => (agree c).imp Eq.symm And.symm

theorem AgreeInAscii.flatMap (agree : AgreeInAscii f g) (ascii : isAscii (cs.flatMap f)) :
    cs.flatMap g = cs.flatMap f := by
  apply List.flatMap_congr
  intro c hc
  rcases agree c with hsame | ⟨hforeign, -⟩
  · exact hsame.symm
  · -- the form of a character is part of the whole, and foreign to it
    have hform : isAscii (f c) :=
      List.all_eq_true.mpr fun d hd => List.all_eq_true.mp ascii d (List.mem_flatMap.mpr ⟨c, hc, hd⟩)
    rw [hform] at hforeign
    cases hforeign

/-- Whether a name in ASCII is met does not depend on what becomes of the other characters. -/
theorem AgreeInAscii.capitals_eq (agree : AgreeInAscii f g) (ascii : isAscii name.toList)
    (h : capitals f value = name) : capitals g value = name := by
  subst h
  rw [capitals, String.toList_ofList] at ascii
  rw [capitals, capitals, agree.flatMap ascii]

end Capitals

namespace RootLogger

inductive Level where
  | critical
  | error
  | warning
  | info
  | debug
  | notSet

namespace Level

def number : Level → Int
  | critical => 50
  | error => 40
  | warning => 30
  | info => 20
  | debug => 10
  | notSet => 0

def names : Level → List String
  | critical => ["CRITICAL", "FATAL"]
  | error => ["ERROR"]
  | warning => ["WARNING", "WARN"]
  | info => ["INFO"]
  | debug => ["DEBUG"]
  | notSet => ["NOTSET"]

theorem isAscii_of_mem_names {level : Level} {name : String} (h : name ∈ level.names) : isAscii name.toList := by
  have hnames : level.names.all (isAscii ·.toList) = true := by cases level <;> decide
  exact List.all_eq_true.mp hnames name h

end Level

/-- The number that a name stands for: that of its level, and that of INFO where no level has the name. -/
inductive Means (name : String) : Int → Prop where
  | level (level : Level) (named : name ∈ level.names) : Means name level.number
  | other (unnamed : ∀ level : Level, name ∉ level.names) : Means name Level.info.number

/-- The names of a format and of a table, with the failure of taking each for a level. -/
def misnomers : List (String × Failure) :=
  [("BASIC_FORMAT", .refused (.logLevel "%(levelname)s:%(name)s:%(message)s")), ("_STYLES", .misfit .noLevel)]

section Names
variable {name : String} {number : Int}

theorem levelNumber?_eq_some_iff :
    levelNumber? name = some number ↔ ∃ level : Level, name ∈ level.names ∧ level.number = number := by
  constructor
  · intro h
    unfold levelNumber? at h
    split at h
    · exact ⟨.critical, by decide, Option.some.inj h⟩
    · exact ⟨.critical, by decide, Option.some.inj h⟩
    · exact ⟨.error, by decide, Option.some.inj h⟩
    · exact ⟨.warning, by decide, Option.some.inj h⟩
    · exact ⟨.warning, by decide, Option.some.inj h⟩
    · exact ⟨.info, by decide, Option.some.inj h⟩
    · exact ⟨.debug, by decide, Option.some.inj h⟩
    · exact ⟨.notSet, by decide, Option.some.inj h⟩
    · cases h
  · rintro ⟨level, hname, rfl⟩
    have hnames : level.names.all (levelNumber? · = some level.number) = true := by cases level <;> decide
    exact of_decide_eq_true (List.all_eq_true.mp hnames name hname)

theorem means_iff : Means name number ↔ (levelNumber? name).getD Level.info.number = number := by
  cases hlevel : levelNumber? name with
  | some n =>
    obtain ⟨level, hname, rfl⟩ := levelNumber?_eq_some_iff.mp hlevel
    constructor
    · intro h
      cases h with
      | level level' hname' =>
        have hlevel' := levelNumber?_eq_some_iff.mpr ⟨level', hname', rfl⟩
        exact Option.some.inj (hlevel.symm.trans hlevel')
      | other unnamed => exact absurd hname (unnamed level)
    · rintro rfl
      exact .level level hname
  | none =>
    have hunnamed (level : Level) : name ∉ level.names := by
      intro hname
      cases hlevel.symm.trans (levelNumber?_eq_some_iff.mpr ⟨level, hname, rfl⟩)
    constructor
    · intro h
      cases h with
      | level level hname => exact absurd hname (hunnamed level)
      | other => rfl
    · rintro rfl
      exact .other hunnamed

theorem levelOf_of_mem_misnomers {m : String × Failure} (h : m ∈ misnomers) : levelOf m.1 = .error m.2 := by
  simp only [misnomers, List.mem_cons, List.not_mem_nil, or_false] at h
  rcases h with rfl | rfl <;> rfl

theorem levelOf_of_not_misnomer (h : ∀ m ∈ misnomers, name ≠ m.1) :
    levelOf name = .ok ((levelNumber? name).getD Level.info.number) := by
  simp only [misnomers, List.forall_mem_cons] at h
  rw [levelOf]
  cases levelNumber? name with
  | some number => rfl
  | none =>
    dsimp only
    rw [if_neg h.1, if_neg h.2.1]
    rfl

end Names

section Capitals
variable {f g : Char → List Char} {value : String} {number : Int}

theorem mem_names_of_agree (agree : AgreeInAscii f g) {level : Level} (h : capitals f value ∈ level.names) :
    capitals g value ∈ level.names := by
  rw [agree.capitals_eq (Level.isAscii_of_mem_names h) rfl]
  exact h

theorem means_of_agree (agree : AgreeInAscii f g) (h : Means (capitals f value) number) :
    Means (capitals g value) number := by
  cases h with
  | level level hname => exact .level level (mem_names_of_agree agree hname)
  | other unnamed => exact .other fun level hname => unnamed level (mem_names_of_agree agree.symm hname)

theorem isAscii_of_mem_misnomers {m : String × Failure} (h : m ∈ misnomers) : isAscii m.1.toList := by
  have hnames : misnomers.all (isAscii ·.1.toList) = true := by decide
  exact List.all_eq_true.mp hnames m h

end Capitals

section Configuring
variable {environment : Environment} {root : RootLogger} {upper : Char → List Char}

def levelName (environment : Environment) : String := (environment.get? "LOG_LEVEL").getD "INFO"

theorem configure_of_handled (h : root.formats ≠ []) : configure environment root = .ok root :=
  if_neg fun hempty => h (List.isEmpty_iff.mp hempty)

theorem configure_of_bare (h : root.formats = []) :
    configure environment root
      = (levelOf (capitals upperAscii (levelName environment))).map (⟨·, [some format]⟩) :=
  if_pos (List.isEmpty_iff.mpr h)

theorem configure_of_misnomer (agree : AgreeInAscii upper upperAscii) (h : root.formats = [])
    {m : String × Failure} (hm : m ∈ misnomers) (hname : capitals upper (levelName environment) = m.1) :
    configure environment root = .error m.2 := by
  have hcapitals := agree.capitals_eq (isAscii_of_mem_misnomers hm) hname
  rw [configure_of_bare h, hcapitals, levelOf_of_mem_misnomers hm]
  rfl

theorem configure_of_not_misnomer (agree : AgreeInAscii upper upperAscii) (h : root.formats = [])
    (hnames : ∀ m ∈ misnomers, capitals upper (levelName environment) ≠ m.1) :
    ∃ number, (∀ n, Means (capitals upper (levelName environment)) n ↔ n = number) ∧
      configure environment root = .ok ⟨number, [some format]⟩ := by
  have hcapitals : ∀ m ∈ misnomers, capitals upperAscii (levelName environment) ≠ m.1 := by
    intro m hm hname
    exact hnames m hm (agree.symm.capitals_eq (isAscii_of_mem_misnomers hm) hname)
  refine ⟨(levelNumber? (capitals upperAscii (levelName environment))).getD Level.info.number, ?_, ?_⟩
  · intro n
    constructor
    · intro hmeans
      exact (means_iff.mp (means_of_agree agree hmeans)).symm
    · rintro rfl
      exact means_of_agree agree.symm (means_iff.mpr rfl)
  · rw [configure_of_bare h, levelOf_of_not_misnomer hcapitals]
    rfl

end Configuring
end RootLogger

namespace Service

/-- A run without the part that sets logging up. -/
def runUnlogged (environment : Environment) (given : Option Settings) (source : ClientSource)
    (lines : List String) : Action Nat := do
  let settings ← match given with
    | some settings => pure settings
    | none => Action.ofExcept ((Settings.load environment []).mapError .invalid)
  deliver settings source lines

theorem run_eq_runUnlogged {environment : Environment} {given : Option Settings} {source : ClientSource}
    {lines : List String} {logger : RootLogger}
    (logging : RootLogger.configure environment .untouched = .ok logger) :
    run environment given source lines = runUnlogged environment given source lines := by
  rw [run, logging]
  rfl

end Service

namespace RootLogger

/-- A root logger that has a handler stays as it is. Any other one gets a handler and the level that the variable means
in capital letters, INFO where it means none, and a run goes on from there. Only the names of a format and of a table
are refused, and with them a run ends before it has called anything. -/
theorem configure_goes_by_name {upper : Char → List Char} (agree : AgreeInAscii upper upperAscii)
    (environment : Environment) (root : RootLogger) :
    let name := capitals upper (levelName environment)
    (root.formats ≠ [] → configure environment root = .ok root) ∧
    (root.formats = [] → (∀ m ∈ misnomers, name ≠ m.1) →
      ∃ number, (∀ n, Means name n ↔ n = number) ∧ configure environment root = .ok ⟨number, [some format]⟩) ∧
    (root.formats = [] → ∀ m ∈ misnomers, name = m.1 → configure environment root = .error m.2) ∧
    ∀ (given : Option Settings) (source : ClientSource) (lines : List String),
      ((∀ m ∈ misnomers, name ≠ m.1) →
        Service.run environment given source lines = Service.runUnlogged environment given source lines) ∧
      ∀ m ∈ misnomers, name = m.1 →
        Service.run environment given source lines = Action.ofExcept (.error m.2) := by
  intro name
  refine ⟨configure_of_handled, configure_of_not_misnomer agree, fun h m => configure_of_misnomer agree h, ?_⟩
  intro given source lines
  constructor
  · intro hnames
    obtain ⟨number, -, hconfigured⟩ := @configure_of_not_misnomer environment .untouched upper agree rfl hnames
    exact Service.run_eq_runUnlogged hconfigured
  · intro m hm hname
    exact Service.run_of_unlogged (configure_of_misnomer agree rfl hm hname)

section Misspelled

def accented (c : Char) : List Char := if c = 'é' then ['É'] else upperAscii c

theorem agreeInAscii_accented : AgreeInAscii accented upperAscii := by
  intro c
  by_cases hc : c = 'é'
  · subst hc
    exact .inr ⟨rfl, rfl⟩
  · exact .inl (if_neg hc)

/-- A name that is spelled with a dotless letter, one that is no name, and a format where there is a handler. -/
theorem dotless_goes_by_name :
    AgreeInAscii accented upperAscii ∧
    configure [("LOG_LEVEL", "warnıng")] .untouched = .ok ⟨Level.warning.number, [some format]⟩ ∧
    configure [("LOG_LEVEL", "débug")] .untouched = .ok ⟨Level.info.number, [some format]⟩ ∧
    configure [("LOG_LEVEL", "basic_format")] ⟨30, [none]⟩ = .ok ⟨30, [none]⟩ := by
  obtain ⟨-, hdotless, -⟩ := configure_goes_by_name agreeInAscii_accented [("LOG_LEVEL", "warnıng")] .untouched
  obtain ⟨-, haccented, -⟩ := configure_goes_by_name agreeInAscii_accented [("LOG_LEVEL", "débug")] .untouched
  obtain ⟨hhandled, -⟩ := configure_goes_by_name agreeInAscii_accented [("LOG_LEVEL", "basic_format")] ⟨30, [none]⟩
  obtain ⟨warning, hwarning, hconfigured⟩ := hdotless rfl (by decide)
  obtain ⟨info, hinfo, hconfigured'⟩ := haccented rfl (by decide)
  obtain rfl := (hwarning _).mp (.level .warning (by decide))
  obtain rfl := (hinfo _).mp (means_iff.mpr rfl)
  exact ⟨agreeInAscii_accented, hconfigured, hconfigured', hhandled (List.cons_ne_nil _ _)⟩

/-- A format and a table are named in small letters, the table with a ligature. No level has these names, and they are
refused. -/
theorem misnomers_refused :
    configure [("LOG_LEVEL", "basic_format")] .untouched
      = .error (.refused (.logLevel "%(levelname)s:%(name)s:%(message)s")) ∧
    configure [("LOG_LEVEL", "_ﬆyles")] .untouched = .error (.misfit .noLevel) ∧
    ∀ level : Level, capitals upperAscii "basic_format" ∉ level.names ∧ capitals upperAscii "_ﬆyles" ∉ level.names := by
  refine ⟨rfl, rfl, ?_⟩
  intro level
  cases level <;> decide

end Misspelled
end RootLogger
end EventDelivery

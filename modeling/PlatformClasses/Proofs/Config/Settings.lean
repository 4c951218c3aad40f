import PlatformClasses.Config.Settings
import PlatformClasses.Proofs.Declaration.Accessors
import PlatformClasses.Proofs.Text.Integers

/-!
# Settings that an environment gives

Each setting is asked for by the variable of its name.  It should be what the text of the variable converts
to, and it should keep its default if there is no variable or if the text does not convert
(`Follows`).  The settings of an environment are the defaults with each one read over, by one of three
readers (`entries_ofEnvironment`), so it is enough to see how a text, a number and a switch are read.  Texts
and numbers are as they should be.  A switch is not: a word that is neither for nor against switches it
off, where the default should stay.

So the settings are as they should be exactly if the one switch among them has no variable or a word that
it knows, and no variable matters to another setting than its own (`settings_follow_iff`).
-/

namespace PlatformClasses.Settings

/-- The value of a setting.  Its default tells what kind of value it takes. -/
inductive Value where
  | text (s : String)
  | number (n : Int)
  | switch (b : Bool)
deriving Repr, DecidableEq

/-- The settings with their names. -/
def entries (s : Settings) : List (String × Value) :=
  [("ROOT_NAMESPACE", .text s.rootNamespace),
   ("ROOT_ELEMENT_DECLARATION", .text s.rootElement),
   ("SHARED_PROJECT_DIRECTORY", .text s.sharedProject),
   ("GENERATED_DIRECTORY", .text s.generatedDirectory),
   ("INDENT_SIZE", .number s.indentSize),
   ("FILE_EXTENSION", .text s.fileExtension),
   ("COLLECTION_TYPES", .text s.collectionTypes),
   ("LOG_DIR", .text s.logDirectory),
   ("ENABLE_FILE_LOG", .switch s.logsToFile)]

/-- The value of the setting of a name. -/
def value? (s : Settings) (key : String) : Option Value := Registry.find key s.entries

/-- A text that is a word for on, in any case. -/
def IsOnWord (text : String) : Prop := Text.lower text ∈ ["true", "1", "yes", "on"]

/-- A text that is a word for off, in any case. -/
def IsOffWord (text : String) : Prop := Text.lower text ∈ ["false", "0", "no", "off"]

/-- The variable of a name is absent, or its text is a word that a switch knows. -/
def KnowsWord (env : Environment) (key : String) : Prop :=
  ∀ text, env.get? (variableFor key) = some text → IsOnWord text ∨ IsOffWord text

/-- A text converts to a value of the kind of another one. -/
inductive Converts (text : String) : Value → Value → Prop
  | text (default : String) : Converts text (.text default) (.text text)
  | number (default : Int) {n : Int} (h : Text.IsIntegerLiteral n text) :
      Converts text (.number default) (.number n)
  | on (default : Bool) (h : IsOnWord text) : Converts text (.switch default) (.switch true)
  | off (default : Bool) (h : IsOffWord text) : Converts text (.switch default) (.switch false)

/-- What a setting should be in an environment. -/
inductive Follows (env : Environment) (key : String) (default : Value) : Value → Prop
  | absent (h : env.get? (variableFor key) = none) : Follows env key default default
  | ignored {text : String} (h : env.get? (variableFor key) = some text)
      (hbad : ∀ value, ¬ Converts text default value) : Follows env key default default
  | converted {text : String} {value : Value} (h : env.get? (variableFor key) = some text)
      (hvalue : Converts text default value) : Follows env key default value

/-- A setting of an environment is what it should be. -/
def IsRespected (env : Environment) (key : String) : Prop :=
  ∃ default value, Settings.default.value? key = some default ∧
    (ofEnvironment env).value? key = some value ∧ Follows env key default value

/-! ## Each kind of value -/

variable (env : Environment) (key : String)

/-- A text follows its variable. -/
theorem follows_text (default : String) :
    Follows env key (.text default) (.text (textOf env key default)) := by
  unfold textOf
  cases h : env.get? (variableFor key) with
  | none => exact .absent h
  | some text => exact .converted h (.text default)

/-- A number follows its variable where that is an integer literal, and is its default elsewhere. -/
theorem follows_number (default : Int) :
    Follows env key (.number default) (.number (numberOf env key default)) := by
  unfold numberOf
  cases h : env.get? (variableFor key) with
  | none => exact .absent h
  | some text =>
      show Follows env key (.number default) (.number ((Text.toInt? text).getD default))
      cases hread : Text.toInt? text with
      | some n => exact .converted h (.number default (Text.toInt?_eq_some_iff.1 hread))
      | none =>
          refine .ignored h ?_
          intro value hvalue
          cases hvalue with
          | number _ hliteral =>
              rw [Text.toInt?_eq_some_iff.2 hliteral] at hread
              cases hread

/-- A switch is turned on by the words for it, and by nothing else. -/
theorem isOn_eq_true_iff {text : String} : isOn text = true ↔ IsOnWord text := by
  simp [isOn, IsOnWord]

theorem IsOffWord.isOn_eq_false {text : String} (h : IsOffWord text) : isOn text = false := by
  unfold IsOffWord at h
  unfold isOn
  generalize Text.lower text = word at h
  revert word
  decide

/-- A text that is no word at all turns a switch off. -/
theorem switchOf_of_unknown {text : String} (h : env.get? (variableFor key) = some text)
    (hon : ¬ IsOnWord text) (default : Bool) : switchOf env key default = false := by
  have hoff : isOn text = false := by
    rw [← Bool.not_eq_true, isOn_eq_true_iff]
    exact hon
  simp [switchOf, h, hoff]

/-- A word that is neither for on nor for off takes away a default that is on. -/
theorem follows_switch_iff :
    Follows env key (.switch true) (.switch (switchOf env key true)) ↔ KnowsWord env key := by
  constructor
  · intro hfollows text h
    by_cases hon : IsOnWord text
    · exact .inl hon
    · rw [switchOf_of_unknown env key h hon] at hfollows
      cases hfollows with
      | converted h' hvalue =>
          obtain rfl : text = _ := Option.some.inj (h.symm.trans h')
          cases hvalue with
          | off _ hoff => exact .inr hoff
  · intro hknows
    unfold switchOf
    cases h : env.get? (variableFor key) with
    | none => exact .absent h
    | some text =>
        show Follows env key (.switch true) (.switch (isOn text))
        obtain hon | hoff := hknows text h
        · rw [isOn_eq_true_iff.2 hon]
          exact .converted h (.on true hon)
        · rw [hoff.isOn_eq_false]
          exact .converted h (.off true hoff)

/-! ## All settings -/

/-- A value read over with the variable of its setting. -/
def readOver (key : String) : Value → Value
  | .text default => .text (textOf env key default)
  | .number default => .number (numberOf env key default)
  | .switch default => .switch (switchOf env key default)

/-- Each setting is its default, read over by its variable. -/
theorem entries_ofEnvironment :
    (ofEnvironment env).entries = default.entries.map fun e => (e.1, readOver env e.1 e.2) := rfl

theorem find_map {α β : Type} (f : String → α → β) (name : String) (entries : List (String × α)) :
    Registry.find name (entries.map fun e => (e.1, f e.1 e.2)) =
      (Registry.find name entries).map (f name) := by
  induction entries with
  | nil => rfl
  | cons e rest ih =>
      by_cases h : e.1 = name
      · simp [Registry.find, h]
      · simp [Registry.find, h, ih]

/-- The value of a key depends on its own default and its own variable. -/
theorem value?_ofEnvironment :
    (ofEnvironment env).value? key = (default.value? key).map (readOver env key) := by
  unfold value?
  rw [entries_ofEnvironment, find_map]

theorem exists_default (h : key ∈ keys) : ∃ value, default.value? key = some value := by
  have hall : ∀ key ∈ keys, (default.value? key).isSome = true := by decide
  exact Option.isSome_iff_exists.1 (hall key h)

/-- The log file is the one setting that is switched on and off. -/
theorem eq_of_default_switch {b : Bool} (h : default.value? key = some (.switch b)) :
    key = "ENABLE_FILE_LOG" ∧ b = true := by
  have hentry := Registry.mem_of_find h
  simpa [entries, default] using hentry

/-- Only the switch can be given a value that is not respected. -/
theorem isRespected_iff (h : key ∈ keys) :
    IsRespected env key ↔ key = "ENABLE_FILE_LOG" → KnowsWord env key := by
  obtain ⟨value, hvalue⟩ := exists_default key h
  have hread : (ofEnvironment env).value? key = some (readOver env key value) := by
    rw [value?_ofEnvironment, hvalue, Option.map_some]
  have hfollows : IsRespected env key ↔ Follows env key value (readOver env key value) := by
    simp [IsRespected, hvalue, hread]
  rw [hfollows]
  cases value with
  | text default =>
      have hkey : key ≠ "ENABLE_FILE_LOG" := by
        rintro rfl
        cases hvalue
      simp [hkey, readOver, follows_text]
  | number default =>
      have hkey : key ≠ "ENABLE_FILE_LOG" := by
        rintro rfl
        cases hvalue
      simp [hkey, readOver, follows_number]
  | switch default =>
      obtain ⟨rfl, rfl⟩ := eq_of_default_switch key hvalue
      simp [readOver, follows_switch_iff]

/-- All settings are what they should be if and only if the switch for the log file has no variable or a
word that it knows.  The other settings always are, and any other word switches the log file off.  No
variable matters to another setting than its own. -/
theorem settings_follow_iff :
    ((∀ key ∈ keys, IsRespected env key) ↔ KnowsWord env "ENABLE_FILE_LOG") ∧
    (∀ key ∈ keys, key ≠ "ENABLE_FILE_LOG" → IsRespected env key) ∧
    (¬ KnowsWord env "ENABLE_FILE_LOG" →
      (ofEnvironment env).value? "ENABLE_FILE_LOG" = some (.switch false)) ∧
    ∀ (env' : Environment) (key : String),
      env'.get? (variableFor key) = env.get? (variableFor key) →
        (ofEnvironment env').value? key = (ofEnvironment env).value? key := by
  refine ⟨⟨?_, ?_⟩, ?_, ?_, ?_⟩
  · intro hall
    have hmem : "ENABLE_FILE_LOG" ∈ keys := by decide
    exact (isRespected_iff env _ hmem).1 (hall _ hmem) rfl
  · rintro hknows key hkey
    rw [isRespected_iff env key hkey]
    rintro rfl
    exact hknows
  · intro key hkey hne
    rw [isRespected_iff env key hkey]
    exact fun heq => absurd heq hne
  · intro hunknown
    simp only [KnowsWord, not_forall, not_or] at hunknown
    obtain ⟨text, htext, hon, -⟩ := hunknown
    rw [value?_ofEnvironment]
    show some (Value.switch (switchOf env _ true)) = _
    rw [switchOf_of_unknown env _ htext hon]
  · intro env' key hsame
    have hread : readOver env' key = readOver env key := by
      funext value
      cases value <;> simp [readOver, textOf, numberOf, switchOf, hsame]
    rw [value?_ofEnvironment, value?_ofEnvironment, hread]

private def givenEnvironment : Environment :=
  ⟨[("CODEGEN_ENABLE_FILE_LOG", "OFF"), ("CODEGEN_INDENT_SIZE", " +1_0\n"), ("CODEGEN_LOG_DIR", "")]⟩

theorem settings_follow_given :
    (∀ key ∈ keys, IsRespected givenEnvironment key) ∧
      (ofEnvironment givenEnvironment).value? "ENABLE_FILE_LOG" = some (.switch false) ∧
      (ofEnvironment givenEnvironment).value? "INDENT_SIZE" = some (.number 10) ∧
      (ofEnvironment givenEnvironment).value? "LOG_DIR" = some (.text "") := by
  refine ⟨(settings_follow_iff givenEnvironment).1.2 ?_, by decide +kernel, by decide +kernel,
    by decide +kernel⟩
  intro text h
  have hoff : givenEnvironment.get? (variableFor "ENABLE_FILE_LOG") = some "OFF" := by decide +kernel
  obtain rfl : text = "OFF" := Option.some.inj (h.symm.trans hoff)
  right
  unfold IsOffWord
  decide +kernel

/-- An environment with a word that no switch knows, and a text that is no number. -/
private def oddEnvironment : Environment :=
  ⟨[("CODEGEN_ENABLE_FILE_LOG", "maybe"), ("CODEGEN_INDENT_SIZE", "wide")]⟩

/-- The log file is switched off by a word that says nothing. -/
theorem unknown_word_switches_off :
    default.value? "ENABLE_FILE_LOG" = some (.switch true) ∧
      (ofEnvironment oddEnvironment).value? "ENABLE_FILE_LOG" = some (.switch false) ∧
      (ofEnvironment oddEnvironment).value? "INDENT_SIZE" = default.value? "INDENT_SIZE" ∧
      ¬ IsRespected oddEnvironment "ENABLE_FILE_LOG" := by
  refine ⟨by decide +kernel, by decide +kernel, by decide +kernel, ?_⟩
  rw [isRespected_iff oddEnvironment _ (by decide)]
  intro hknows
  have hword := hknows rfl "maybe" (by decide +kernel)
  revert hword
  unfold IsOnWord IsOffWord
  decide +kernel

end PlatformClasses.Settings

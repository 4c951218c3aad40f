import PlatformClasses.Command
import PlatformClasses.Proofs.Outcome

/-!
# Configurations that cannot be carried out

A command line is given up before anything is done if its configuration cannot be carried out.
`Misconfigured` lists what can be wrong: the file of variables, if it is to be read, is no text or gives a
variable that no environment takes, an entry of the registry of collections is not of the form, there are
no inputs, one of them does not exist, or the namespace cannot be a root.  A command line is configured
unless one of these is the case, and the first of them is the error (`configure_eq_error_iff`).

Of a file of variables, the environment takes those that it does not have yet, and keeps its own values
(`get?_of_supplement`).
-/

namespace PlatformClasses

namespace Environment

/-! ## Variables that are refused -/

/-- What an environment refuses a variable for.  That there is a null character comes up first. -/
inductive Refuses (name value : String) : EnvRefusal → Prop
  | nullCharacter (h : '\x00' ∈ name.toList ∨ '\x00' ∈ value.toList) :
      Refuses name value .nullCharacter
  | signInName (hname : '\x00' ∉ name.toList) (hvalue : '\x00' ∉ value.toList)
      (h : '=' ∈ name.toList) : Refuses name value .signInName

variable {env env' : Environment} {name value : String} {refusal : EnvRefusal}

theorem assign_eq_error_iff : env.assign name value = .error refusal ↔ Refuses name value refusal := by
  unfold assign
  split_ifs with hnull hsign
  · constructor
    · intro h
      obtain rfl := Except.error.inj h
      exact .nullCharacter hnull
    · intro h
      cases h with
      | nullCharacter => rfl
      | signInName hname hvalue => exact absurd hnull (not_or.2 ⟨hname, hvalue⟩)
  · obtain ⟨hname, hvalue⟩ := not_or.1 hnull
    constructor
    · intro h
      obtain rfl := Except.error.inj h
      exact .signInName hname hvalue hsign
    · intro h
      cases h with
      | nullCharacter h => exact absurd h hnull
      | signInName => rfl
  · simp only [false_iff]
    intro h
    cases h with
    | nullCharacter h => exact hnull h
    | signInName _ _ h => exact hsign h

theorem eq_insert_of_assign (h : env.assign name value = .ok env') : env' = env.insert name value := by
  unfold assign at h
  split_ifs at h
  exact (Except.ok.inj h).symm

/-- A variable that has a value and that the environment does not have yet is assigned. -/
theorem supplement_cons_of_new (hnew : env.contains name = false)
    (rest : List (String × Option String)) :
    env.supplement ((name, some value) :: rest) =
      (env.assign name value).bind fun reached => reached.supplement rest := by
  rw [supplement, hnew]
  cases env.assign name value <;> rfl

/-- The environment is given up at the first variable that it would take and refuses. -/
theorem supplement_eq_error_iff {given : List (String × Option String)} :
    env.supplement given = .error refusal ↔ ∃ before name value after reached,
      given = before ++ (name, some value) :: after ∧ env.supplement before = .ok reached ∧
        reached.contains name = false ∧ Refuses name value refusal := by
  constructor
  · intro h
    fun_induction supplement env given with
    | case1 env => cases h
    | case2 env name rest ih =>
        obtain ⟨before, other, value, after, reached, rfl, hreached, hother⟩ := ih h
        exact ⟨(name, none) :: before, other, value, after, reached, rfl, hreached, hother⟩
    | case3 env name value rest hheld ih =>
        obtain ⟨before, other, more, after, reached, rfl, hreached, hother⟩ := ih h
        refine ⟨(name, some value) :: before, other, more, after, reached, rfl, ?_, hother⟩
        rw [supplement, hheld]
        exact hreached
    | case4 env name value rest hnew refusal' hrefused =>
        obtain rfl := Except.error.inj h
        exact ⟨[], name, value, rest, env, rfl, rfl, by simpa using hnew,
          assign_eq_error_iff.1 hrefused⟩
    | case5 env name value rest hnew next hassigned ih =>
        obtain ⟨before, other, more, after, reached, rfl, hreached, hother⟩ := ih h
        refine ⟨(name, some value) :: before, other, more, after, reached, rfl, ?_, hother⟩
        rw [supplement_cons_of_new (by simpa using hnew), hassigned]
        exact hreached
  · rintro ⟨before, name, value, after, reached, rfl, hreached, hnew, hrefused⟩
    fun_induction supplement env before with
    | case1 env =>
        obtain rfl := Except.ok.inj hreached
        rw [List.nil_append, supplement_cons_of_new hnew, assign_eq_error_iff.2 hrefused]
        rfl
    | case2 env other rest ih => exact ih hreached
    | case3 env other held rest hheld ih =>
        rw [List.cons_append, supplement, hheld]
        exact ih hreached
    | case4 env other held rest hother refusal' hrefused' => cases hreached
    | case5 env other held rest hother next hassigned ih =>
        rw [List.cons_append, supplement_cons_of_new (by simpa using hother), hassigned]
        exact ih hreached

/-- The first value that is given for a name. -/
def firstGiven? (given : List (String × Option String)) (name : String) : Option String :=
  given.findSome? fun entry => if entry.1 = name then entry.2 else none

/-- An environment keeps its own values, and of the others the first ones count. -/
theorem get?_of_supplement {given : List (String × Option String)}
    (h : env.supplement given = .ok env') (key : String) :
    env'.get? key = (env.get? key).or (firstGiven? given key) := by
  fun_induction supplement env given with
  | case1 env =>
      obtain rfl := Except.ok.inj h
      simp [firstGiven?]
  | case2 env name rest ih =>
      rw [ih h]
      simp [firstGiven?]
  | case3 env name value rest hheld ih =>
      rw [ih h]
      by_cases hname : name = key
      · subst hname
        obtain ⟨own, hown⟩ := Option.isSome_iff_exists.1 hheld
        simp [hown]
      · simp [firstGiven?, hname]
  | case4 env name value rest hnew refusal' hrefused => cases h
  | case5 env name value rest hnew next hassigned ih =>
      obtain rfl := eq_insert_of_assign hassigned
      rw [ih h]
      by_cases hname : name = key
      · subst hname
        have hnone : env.get? name = none := by simpa [Registry.contains] using hnew
        simp [firstGiven?, hnone]
      · rw [Registry.get?_insert_of_ne env (Ne.symm hname)]
        simp [firstGiven?, hname]

end Environment

/-! ## Checks -/

namespace Config

variable {c : Config} {tree : FileTree}

/-- A configuration that can be carried out on a tree. -/
structure IsValid (c : Config) (tree : FileTree) : Prop where
  inputs : c.inputs ≠ []
  exist : ∀ p ∈ c.inputs, tree.contains p = true
  root : isRoot c.rootNamespace = true

/-- What a configuration cannot be carried out for.  The inputs come before the root, and the first of
them that does not exist is named. -/
inductive IsRejected (c : Config) (tree : FileTree) : ConfigError → Prop
  | noInputs (h : c.inputs = []) : IsRejected c tree .noInputs
  | missingInput {before after : List Path} {path : Path} (hinputs : c.inputs = before ++ path :: after)
      (hbefore : ∀ p ∈ before, tree.contains p = true) (h : tree.contains path = false) :
      IsRejected c tree (.missingInput path)
  | badRoot (hinputs : c.inputs ≠ []) (hexist : ∀ p ∈ c.inputs, tree.contains p = true)
      (h : isRoot c.rootNamespace = false) : IsRejected c tree (.badRoot c.rootNamespace)

theorem validate_of_isValid (h : c.IsValid tree) : c.validate tree = .ok () := by
  have hfind : c.inputs.find? (fun p => !tree.contains p) = none := by
    simpa using h.exist
  have hsome : c.inputs.isEmpty = false := by simpa using h.inputs
  unfold validate missingInput?
  simp [hsome, hfind, h.root]

theorem validate_of_isRejected {e : ConfigError} (h : c.IsRejected tree e) :
    c.validate tree = .error e := by
  unfold validate missingInput?
  cases h with
  | noInputs h => simp [h]
  | @missingInput before after path hinputs hbefore h =>
      have hfind : c.inputs.find? (fun p => !tree.contains p) = some path :=
        List.find?_eq_some_iff_append.2
          ⟨by simp [h], before, after, hinputs, by simpa using hbefore⟩
      have hsome : c.inputs.isEmpty = false := by simp [hinputs]
      simp [hsome, hfind]
  | badRoot hinputs hexist h =>
      have hfind : c.inputs.find? (fun p => !tree.contains p) = none := by
        simpa using hexist
      have hsome : c.inputs.isEmpty = false := by simpa using hinputs
      simp [hsome, hfind, h]

theorem isValid_or_isRejected (c : Config) (tree : FileTree) :
    c.IsValid tree ∨ ∃ e, c.IsRejected tree e := by
  by_cases hinputs : c.inputs = []
  · exact .inr ⟨_, .noInputs hinputs⟩
  cases hmissing : c.inputs.find? fun p => !tree.contains p with
  | some path =>
      obtain ⟨hpath, before, after, hsplit, hbefore⟩ := List.find?_eq_some_iff_append.1 hmissing
      exact .inr ⟨_, .missingInput hsplit (by simpa using hbefore) (by simpa using hpath)⟩
  | none =>
      have hexist : ∀ p ∈ c.inputs, tree.contains p = true := by
        simpa using List.find?_eq_none.1 hmissing
      cases hroot : isRoot c.rootNamespace with
      | true => exact .inl ⟨hinputs, hexist, hroot⟩
      | false => exact .inr ⟨_, .badRoot hinputs hexist hroot⟩

/-- The checks are passed exactly if the configuration can be carried out. -/
theorem validate_eq_ok_iff : c.validate tree = .ok () ↔ c.IsValid tree := by
  constructor
  · intro h
    rcases isValid_or_isRejected c tree with hvalid | ⟨e, hrejected⟩
    · exact hvalid
    · rw [validate_of_isRejected hrejected] at h
      cases h
  · exact validate_of_isValid

/-- The checks fail exactly with what the configuration is rejected for. -/
theorem validate_eq_error_iff {e : ConfigError} :
    c.validate tree = .error e ↔ c.IsRejected tree e := by
  constructor
  · intro h
    rcases isValid_or_isRejected c tree with hvalid | ⟨e', hrejected⟩
    · rw [validate_eq_ok_iff.2 hvalid] at h
      cases h
    · rw [validate_of_isRejected hrejected] at h
      obtain rfl := Except.error.inj h
      exact hrejected
  · exact validate_of_isRejected

end Config

/-! ## Command lines -/

namespace Command

/-- What can be wrong with the configuration that a command line asks for. -/
inductive Misconfigured (reader : EnvReader) (args : Arguments) (env : Environment)
    (tree : FileTree) : ConfigError → Prop
  /-- The file of variables is no text. -/
  | noText {bytes : List UInt8} {malformed : Text.Utf8.Malformed} (hon : reader.isOff env = false)
      (hfile : tree.lookup? Config.defaultEnvFile = some (.file bytes))
      (h : Text.Utf8.decode bytes = .error malformed) :
      Misconfigured reader args env tree (.environmentFile (.encoding malformed))
  /-- The environment refuses a variable of the file. -/
  | refused {bytes : List UInt8} {cs : List Char} {before after : List (String × Option String)}
      {name value : String} {reached : Environment} {refusal : EnvRefusal}
      (hon : reader.isOff env = false)
      (hfile : tree.lookup? Config.defaultEnvFile = some (.file bytes))
      (htext : Text.Utf8.decode bytes = .ok cs)
      (hgiven : reader.read env (SourceFile.lineFeeds cs) = before ++ (name, some value) :: after)
      (hreached : env.supplement before = .ok reached) (hnew : reached.contains name = false)
      (h : Environment.Refuses name value refusal) :
      Misconfigured reader args env tree (.environmentFile (.refused refusal))
  /-- An entry of the registry of collections is not of the form. -/
  | badCollection {env' : Environment} {entry : String}
      (hload : EnvFile.load reader tree Config.defaultEnvFile env = .ok env')
      (h : Collections.parse ((env'.get? "COLLECTION_TYPES").getD
        (Settings.ofEnvironment env').collectionTypes) = .error entry) :
      Misconfigured reader args env tree (.badCollection entry)
  /-- The checks are not passed. -/
  | rejected {config : Config} {env' : Environment} {e : ConfigError}
      (hplan : plan reader args env tree = .ok (config, env')) (h : config.IsRejected tree e) :
      Misconfigured reader args env tree e

variable {reader : EnvReader} {args : Arguments} {env : Environment} {tree : FileTree}

/-- A file of variables that is to be read cannot be had if it is no text or gives a variable that is
refused. -/
theorem load_eq_error_iff {path : Path} {failure : EnvFile.LoadFailure} :
    EnvFile.load reader tree path env = .error failure ↔
      reader.isOff env = false ∧ ∃ bytes, tree.lookup? path = some (.file bytes) ∧
        ((∃ malformed, Text.Utf8.decode bytes = .error malformed ∧ failure = .encoding malformed) ∨
          ∃ cs refusal, Text.Utf8.decode bytes = .ok cs ∧
            env.supplement (reader.read env (SourceFile.lineFeeds cs)) = .error refusal ∧
              failure = .refused refusal) := by
  unfold EnvFile.load
  cases hoff : reader.isOff env with
  | true => simp
  | false =>
      cases hfile : tree.lookup? path with
      | none => simp
      | some entry =>
          cases entry with
          | directory => simp
          | file bytes =>
              cases htext : Text.Utf8.decode bytes with
              | error malformed => simp [htext, eq_comm]
              | ok cs =>
                  cases hgiven : env.supplement (reader.read env (SourceFile.lineFeeds cs)) with
                  | error refusal => simp [htext, hgiven, eq_comm]
                  | ok env' => simp [htext, hgiven]

/-- A plan fails if the file of variables cannot be had, or else a registry entry is not of the form. -/
theorem plan_eq_error_iff {e : ConfigError} :
    plan reader args env tree = .error e ↔
      (∃ failure, EnvFile.load reader tree Config.defaultEnvFile env = .error failure ∧
        e = .environmentFile failure) ∨
      ∃ env' entry, EnvFile.load reader tree Config.defaultEnvFile env = .ok env' ∧
        Collections.parse ((env'.get? "COLLECTION_TYPES").getD
          (Settings.ofEnvironment env').collectionTypes) = .error entry ∧ e = .badCollection entry := by
  unfold plan Config.environmentWith
  cases hload : EnvFile.load reader tree Config.defaultEnvFile env with
  | error failure =>
      show Except.error _ = Except.error e ↔ _
      simp [eq_comm]
  | ok env' =>
      cases hparse : Collections.parse ((env'.get? "COLLECTION_TYPES").getD
        (Settings.ofEnvironment env').collectionTypes) with
      | error entry =>
          have hconfig : Config.ofEnvironment env' = .error (.badCollection entry) := by
            simp only [Config.ofEnvironment, hparse]
          simp [bind, Except.bind, hconfig, hparse, eq_comm]
      | ok collections =>
          obtain ⟨config, hconfig⟩ : ∃ config, Config.ofEnvironment env' = .ok config := by
            simp only [Config.ofEnvironment, hparse]
            exact ⟨_, rfl⟩
          simp [bind, Except.bind, hconfig, hparse, pure, Except.pure]

/-- A command line cannot be configured exactly if something is wrong with the configuration that it asks
for, and that is the error. -/
theorem configure_eq_error_iff {e : ConfigError} :
    configure reader args env tree = .error e ↔ Misconfigured reader args env tree e := by
  have hsteps : configure reader args env tree = .error e ↔ plan reader args env tree = .error e ∨
      ∃ config env', plan reader args env tree = .ok (config, env') ∧
        config.validate tree = .error e := by
    unfold configure
    rw [bind_eq_error, Prod.exists]
    simp only [bind_eq_error, reduceCtorEq, and_false, exists_const, or_false, pure, Except.pure]
  rw [hsteps, plan_eq_error_iff]
  constructor
  · rintro ((⟨failure, hload, rfl⟩ | ⟨env', entry, hload, hparse, rfl⟩) | ⟨config, env', hplan, hchecks⟩)
    · obtain ⟨hon, bytes, hfile, ⟨malformed, htext, rfl⟩ | ⟨cs, refusal, htext, hrefused, rfl⟩⟩ :=
        load_eq_error_iff.1 hload
      · exact .noText hon hfile htext
      · obtain ⟨before, name, value, after, reached, hgiven, hreached, hnew, hrefused⟩ :=
          Environment.supplement_eq_error_iff.1 hrefused
        exact .refused hon hfile htext hgiven hreached hnew hrefused
    · exact .badCollection hload hparse
    · exact .rejected hplan (Config.validate_eq_error_iff.1 hchecks)
  · intro h
    cases h with
    | noText hon hfile htext =>
        exact .inl (.inl ⟨_, load_eq_error_iff.2 ⟨hon, _, hfile, .inl ⟨_, htext, rfl⟩⟩, rfl⟩)
    | refused hon hfile htext hgiven hreached hnew hrefused =>
        have hsupplement := Environment.supplement_eq_error_iff.2
          ⟨_, _, _, _, _, hgiven, hreached, hnew, hrefused⟩
        exact .inl (.inl ⟨_, load_eq_error_iff.2
          ⟨hon, _, hfile, .inr ⟨_, _, htext, hsupplement, rfl⟩⟩, rfl⟩)
    | badCollection hload hparse => exact .inl (.inr ⟨_, _, hload, hparse, rfl⟩)
    | rejected hplan hrejected =>
        exact .inr ⟨_, _, hplan, Config.validate_eq_error_iff.2 hrejected⟩

end Command

end PlatformClasses

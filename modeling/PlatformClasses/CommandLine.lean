import PlatformClasses.Path
import PlatformClasses.Platform

/-!
# Command lines

Arguments are inputs and options.  The inputs stand together in one run.  A long option may be
shortened as long as it stays distinct; a short one may be followed at once by its value or by further
short options; two dashes end the options.
-/

namespace PlatformClasses

/-- The arguments of a command line. -/
structure Arguments where
  inputs : List Path := []
  output : Option Path := none
  platform : Option String := none
  allPlatforms : Bool := false
  verbose : Bool := false
deriving Repr, DecidableEq

/-- Why a command line is not carried out. -/
inductive CommandLineStop where
  /-- The arguments are not as they should be. -/
  | usage
  /-- Help is asked for. -/
  | help
deriving Repr, DecidableEq

/-- The exit code of a command line that is not carried out. -/
def CommandLineStop.exitCode : CommandLineStop → Nat
  | usage => 2
  | help => 0

namespace CommandLine

/-- The options. -/
inductive Flag where
  | help
  | output
  | platform
  | allPlatforms
  | verbose
deriving Repr, DecidableEq

/-- Whether an option takes a value. -/
def Flag.takesValue : Flag → Bool
  | output | platform => true
  | _ => false

/-- The spellings of the options. -/
def spellings : List (String × Flag) :=
  [("-h", .help), ("--help", .help), ("-o", .output), ("--output", .output), ("-p", .platform),
   ("--platform", .platform), ("--all-platforms", .allPlatforms), ("-v", .verbose),
   ("--verbose", .verbose)]

/-- The option of a spelling. -/
def flagOf? (spelling : String) : Option Flag :=
  (spellings.find? fun e => e.1 == spelling).map (·.2)

/-- What is written in one argument after the name of an option. -/
structure Attached where
  text : String
  /-- Whether an equality sign comes before it. -/
  afterSign : Bool
deriving Repr, DecidableEq

/-- An argument by its form. -/
inductive Word where
  /-- An input or the value of an option. -/
  | plain (text : String)
  /-- The two dashes that end the options. -/
  | dashes
  /-- A short or a long option. -/
  | option (flag : Flag) (isLong : Bool) (attached : Option Attached)
  /-- An option that there is not. -/
  | unknown
deriving Repr, DecidableEq

/-- A text up to the first equality sign, and what follows it. -/
def splitSign (s : String) : String × Option String :=
  let cs := s.toList
  let name := cs.takeWhile (· != '=')
  match cs.dropWhile (· != '=') with
  | _ :: value => (String.ofList name, some (String.ofList value))
  | [] => (s, none)

/-- Whether an argument is a negative number. -/
def isNegativeNumber (cs : List Char) : Bool :=
  match cs with
  | '-' :: rest =>
    let rest := if rest.getLast? = some '\n' then rest.dropLast else rest
    let whole := rest.takeWhile Text.isDecimalDigit
    match rest.dropWhile Text.isDecimalDigit with
    | [] => !whole.isEmpty
    | '.' :: fraction => !fraction.isEmpty && fraction.all Text.isDecimalDigit
    | _ => false
  | _ => false

/-- The form of an argument that no option is.  Negative numbers and arguments with spaces are plain. -/
def otherWord (s : String) : Word :=
  if isNegativeNumber s.toList || s.toList.contains ' ' then .plain s else .unknown

/-- The form of a long option, given its beginning. -/
def longWord (s : String) : Except CommandLineStop Word :=
  let (start, value) := splitSign s
  match spellings.filter fun e => Text.hasLead start e.1 with
  | [(_, flag)] => .ok (.option flag true (value.map fun v => ⟨v, true⟩))
  | [] => .ok (otherWord s)
  | _ => .error .usage

/-- The form of an argument before two dashes. -/
def wordOf (s : String) : Except CommandLineStop Word :=
  match s.toList with
  | [] => .ok (.plain s)
  | ['-'] => .ok (.plain s)
  | '-' :: second :: rest =>
    match flagOf? s with
    | some flag => .ok (.option flag (second == '-') none)
    | none =>
      match splitSign s with
      | (name, some value) =>
        match flagOf? name with
        | some flag => .ok (.option flag (second == '-') (some ⟨value, true⟩))
        | none => other s second rest
      | (_, none) => other s second rest
  | _ => .ok (.plain s)
where
  /-- The form of an argument with a dash that is not the whole name of an option. -/
  other (s : String) (second : Char) (rest : List Char) : Except CommandLineStop Word :=
    if second == '-' then longWord s
    else
      match flagOf? (String.ofList ['-', second]) with
      | some flag => .ok (.option flag false (some ⟨String.ofList rest, false⟩))
      | none => .ok (otherWord s)

/-- The forms of arguments. -/
def wordsOf : List String → Except CommandLineStop (List Word)
  | [] => .ok []
  | s :: rest =>
    if s = "--" then .ok (.dashes :: rest.map Word.plain)
    else do
      let word ← wordOf s
      let more ← wordsOf rest
      return word :: more

/-- How a row of options in one argument ends. -/
inductive RowEnd where
  /-- With an option that takes no value. -/
  | done
  /-- With a letter that is no option. -/
  | unknown
  /-- With an option and its value. -/
  | value (flag : Flag) (text : String)
  /-- With an option whose value is the next argument. -/
  | wantsValue (flag : Flag)
deriving Repr, DecidableEq

/-- The options of one argument without values, and how the row ends.  The letters after a short option
without a value are further short options. -/
def rowFrom (flag : Flag) : List Char → Except CommandLineStop (List Flag × RowEnd)
  | [] =>
    if flag.takesValue then .ok ([], .wantsValue flag) else .ok ([flag], .done)
  | c :: rest =>
    if flag.takesValue then
      .ok ([], .value flag (String.ofList (if c == '=' then rest else c :: rest)))
    else if c == '-' || c == '=' then .error .usage
    else
      match flagOf? (String.ofList ['-', c]) with
      | none => .ok ([flag], .unknown)
      | some next => (rowFrom next rest).map fun (flags, ending) => (flag :: flags, ending)

/-- The options that one argument gives. -/
def rowOf (flag : Flag) (isLong : Bool) (attached : Option Attached) :
    Except CommandLineStop (List Flag × RowEnd) :=
  match attached with
  | none => rowFrom flag []
  | some a =>
    if flag.takesValue then .ok ([], .value flag a.text)
    else if isLong || a.afterSign || a.text = "" then .error .usage
    else rowFrom flag a.text.toList

/-- Where a command line stands with its inputs. -/
inductive Phase where
  | before
  | within
  | after
deriving Repr, DecidableEq

/-- What has been read of a command line. -/
structure Progression where
  arguments : Arguments := {}
  phase : Phase := .before
  /-- Whether something could not be placed. -/
  hasExtra : Bool := false
deriving Repr, DecidableEq

/-- The effect of an option without a value. -/
def applyFlag (a : Arguments) : Flag → Except CommandLineStop Arguments
  | .help => .error .help
  | .allPlatforms => .ok { a with allPlatforms := true }
  | .verbose => .ok { a with verbose := true }
  | _ => .ok a

/-- The effect of options without values, in order. -/
def applyFlags : Arguments → List Flag → Except CommandLineStop Arguments
  | a, [] => .ok a
  | a, flag :: rest =>
    match applyFlag a flag with
    | .ok a => applyFlags a rest
    | .error e => .error e

/-- The effect of an option with a value. -/
def applyValue (a : Arguments) (flag : Flag) (text : String) : Except CommandLineStop Arguments :=
  match flag with
  | .platform =>
    if Platform.names.contains text then .ok { a with platform := some text } else .error .usage
  | .output => .ok { a with output := some (Path.ofString text) }
  | _ => .ok a

/-- An option ends a run of inputs. -/
def Phase.afterOption : Phase → Phase
  | before => before
  | _ => after

/-- An input, which must belong to the one run of inputs. -/
def Progression.addInput (p : Progression) (text : Option String) : Progression :=
  match p.phase with
  | .after => { p with hasExtra := true }
  | _ =>
    { p with
      phase := .within
      arguments := { p.arguments with
        inputs := p.arguments.inputs ++ (text.map Path.ofString).toList } }

/-- Reads the forms of arguments. -/
def read : Progression → List Word → Except CommandLineStop Arguments
  | p, [] => if p.hasExtra then .error .usage else .ok p.arguments
  | p, .plain text :: rest => read (p.addInput (some text)) rest
  | p, .dashes :: rest => read (p.addInput none) rest
  | p, .unknown :: rest => read { p with hasExtra := true, phase := p.phase.afterOption } rest
  | p, .option flag isLong attached :: rest => do
    let (flags, ending) ← rowOf flag isLong attached
    match ending, rest with
    | .done, rest =>
      let a ← applyFlags p.arguments flags
      read { p with arguments := a, phase := p.phase.afterOption } rest
    | .unknown, rest =>
      let a ← applyFlags p.arguments flags
      read { p with arguments := a, phase := p.phase.afterOption, hasExtra := true } rest
    | .value flag text, rest =>
      let a ← applyFlags p.arguments flags
      let a ← applyValue a flag text
      read { p with arguments := a, phase := p.phase.afterOption } rest
    | .wantsValue flag, .plain text :: rest =>
      let a ← applyFlags p.arguments flags
      let a ← applyValue a flag text
      read { p with arguments := a, phase := p.phase.afterOption } rest
    | .wantsValue _, _ => .error .usage

/-- Reads a command line. -/
def parse (args : List String) : Except CommandLineStop Arguments := do
  let words ← wordsOf args
  read {} words

end CommandLine

end PlatformClasses

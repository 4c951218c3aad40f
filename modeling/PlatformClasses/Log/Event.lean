import PlatformClasses.Path

/-!
# What is logged

The events of a run, each with a level and a text.  Some texts give a time or an amount of memory; these
figures are known only where the text is written, so they are filled in there.
-/

namespace PlatformClasses

/-- How important a record is. -/
inductive LogLevel where
  | debug
  | info
  | warning
  | error
  | critical
deriving Repr, DecidableEq

namespace LogLevel

/-- The rank of a level. -/
def rank : LogLevel → Nat
  | debug => 10
  | info => 20
  | warning => 30
  | error => 40
  | critical => 50

/-- The name of a level. -/
def name : LogLevel → String
  | debug => "DEBUG"
  | info => "INFO"
  | warning => "WARNING"
  | error => "ERROR"
  | critical => "CRITICAL"

end LogLevel

/-- What is measured where a text is written. -/
structure Figures where
  /-- The time that has passed, in milliseconds. -/
  elapsed : Nat
  /-- The memory in use, in tenths of a megabyte. -/
  memory : Nat
deriving Repr

namespace Figures

/-- A number with the given count of decimal places, given in units of the last of them. -/
def decimal (places n : Nat) : String :=
  let one := Nat.pow 10 places
  let fraction := Nat.repr (n % one)
  Nat.repr (n / one) ++ "." ++
    String.ofList (List.replicate (places - fraction.length) '0') ++ fraction

/-- The time that has passed, to the millisecond. -/
def fineTime (f : Figures) : String := decimal 3 f.elapsed ++ "s"

/-- The time that has passed, to the hundredth of a second. -/
def coarseTime (f : Figures) : String := decimal 2 ((f.elapsed + 5) / 10) ++ "s"

/-- The memory in use. -/
def memoryText (f : Figures) : String := decimal 1 f.memory ++ " MB"

end Figures

/-- Something that is logged. -/
inductive LogEvent where
  /-- An operation begins. -/
  | started (operation : String)
  /-- An operation has been carried out. -/
  | completed (operation : String)
  /-- An operation has been broken off. -/
  | failed (operation reason : String)
  /-- A step begins. -/
  | stepStarted (step : String)
  /-- A step has been carried out. -/
  | stepCompleted (step : String)
  /-- A step has been broken off. -/
  | stepFailed (step reason : String)
  /-- The counts at the end of a run. -/
  | summary (declarations files : Nat)
  /-- The memory in use. -/
  | memory
  /-- An input is neither a directory nor a source file. -/
  | skipping (input : Path)
  /-- The source files that are read. -/
  | loading (files : Nat)
  /-- The declarations that were read. -/
  | loaded (declarations : Nat)
  /-- The declarations that classes are generated for. -/
  | generating (declarations : Nat) (platform : String)
  /-- The run has been broken off. -/
  | runFailed (reason : String)
  /-- The run has been carried out. -/
  | runSucceeded (files : Nat) (outputRoot : Path)
deriving Repr, DecidableEq

namespace LogEvent

/-- The level of an event. -/
def level : LogEvent → LogLevel
  | started _ | completed _ | failed .. | stepStarted _ | stepCompleted _ | stepFailed .. |
    memory => .debug
  | skipping _ => .warning
  | runFailed _ => .error
  | _ => .info

/-- The text of an event. -/
def message (f : Figures) : LogEvent → String
  | started operation => s!"Starting operation: {operation}"
  | completed operation => s!"Completed operation: {operation} in {f.fineTime}"
  | failed operation reason => s!"Failed operation: {operation} after {f.fineTime}: {reason}"
  | stepStarted step => s!"Starting {step}"
  | stepCompleted step => s!"Completed {step} in {f.fineTime}"
  | stepFailed step reason => s!"Failed {step} after {f.fineTime}: {reason}"
  | summary declarations files =>
    s!"Generation complete: {Nat.repr declarations} declaration(s), " ++
      s!"{Nat.repr files} file(s) in {f.coarseTime}"
  | memory => s!"Memory usage: {f.memoryText}"
  | skipping input => s!"Skipping unsupported input file: {input.toString}"
  | loading files => s!"Loading declarations from {Nat.repr files} file(s)"
  | loaded declarations => s!"Loaded {Nat.repr declarations} declaration(s)"
  | generating declarations platform =>
    s!"Generating {Nat.repr declarations} declaration(s) for {platform}"
  | runFailed reason => s!"[FAILED] {reason}"
  | runSucceeded files outputRoot =>
    s!"[SUCCESS] Wrote {Nat.repr files} file(s) under {outputRoot.toString}"

/-- What is logged around a step of the given name, which may fail for a reason. -/
def around (step : String) (failure : Option String) : List LogEvent :=
  [stepStarted step,
   match failure with
   | none => stepCompleted step
   | some reason => stepFailed step reason]

end LogEvent

/-- A line on the console. -/
def consoleLine (level : LogLevel) (message : String) : String := s!"{level.name}: {message}"

end PlatformClasses

import PlatformClasses.Command
import Std.Time

/-!
# The command line

Carries out the command on the files of the disk.  What the command can read is copied into a file tree
before it begins, and what it has put into the tree is copied back when it has ended.
-/

namespace PlatformClasses

namespace Disk

/-- The names that lead to the working directory. -/
def here : IO (List String) := do
  return (Path.ofString (← IO.currentDir).toString).components

/-- The bytes of the file at a path. -/
def readBytes (p : Path) : IO (List UInt8) := do
  return (← IO.FS.readBinFile ((← IO.currentDir) / p.toString)).toList

/-- Copies what stands at a path into a tree that holds what stands on the way there.  The content of a
file is copied only if it is wanted. -/
def copyEntry (withContent : Bool) (tree : FileTree) (p : Path) : IO FileTree := do
  let start ← IO.currentDir
  match tree.placeOf p with
  | .error _ => return tree
  | .ok place =>
    if FileTree.isOnWayHere tree.here place then return tree
    else if ← (start / p.toString).isDir then return tree.put place .directory
    else if ← (start / p.toString).pathExists then
      return tree.put place (.file (← if withContent then readBytes p else pure []))
    else return tree

/-- Copies what stands at a path and on the way there. -/
def copyPath (tree : FileTree) (p : Path) : IO FileTree :=
  (List.range p.components.length).foldlM
    (fun tree n => copyEntry true tree ⟨p.anchor, p.components.take (n + 1)⟩) tree

/-- Copies what stands below a path, with the contents of the files that a search finds. -/
partial def copyBelow (tree : FileTree) (p : Path) : IO FileTree := do
  let start ← IO.currentDir
  if ← (start / p.toString).isDir then
    let entries ← (start / p.toString).readDir
    entries.foldlM
      (fun tree entry => do
        let q := p.append ⟨0, [entry.fileName]⟩
        copyBelow (← copyEntry (Text.hasTrail ".cs" q.name) tree q) q)
      tree
  else return tree

/-- Copies what stands at a path, on the way there and below. -/
def copyAll (tree : FileTree) (p : Path) : IO FileTree := do
  copyBelow (← copyPath tree p) p

/-- Writes what a tree holds and an earlier one does not. -/
def copyBack (earlier later : FileTree) : IO Unit := do
  for (place, entry) in later.entries do
    if earlier.entryAt? place != some entry then
      match entry with
      | .directory => IO.FS.createDirAll place.toString
      | .file bytes => IO.FS.writeBinFile place.toString ⟨bytes.toArray⟩

end Disk

namespace Host

/-- The environment, as far as a configuration and a file of variables can look at it. -/
def environment (envFile : List Char) : IO Environment := do
  let names := Config.variableNames ++ EnvFile.names envFile
  let entries ← names.filterMapM fun name => do
    return (← IO.getEnv name).map fun value => (name, value)
  return Registry.ofList entries

/-- The present moment. -/
def moment : IO LogMoment := do
  let now ← Std.Time.PlainDateTime.now
  return ⟨now.format "uuuuMMdd_HHmmss", now.format "uuuu-MM-dd HH:mm:ss"⟩

/-- The memory in use, in tenths of a megabyte; nothing where the system does not tell. -/
def memoryInUse : IO Nat := do
  try
    let counts := (← IO.FS.readFile "/proc/self/statm").splitOn " "
    let pages := (counts[1]?.bind String.toNat?).getD 0
    return pages * 40960 / 1048576
  catch _ => return 0

end Host

/-- How the command is used. -/
def usage : String :=
  "usage: platformclasses [-h] [-o OUTPUT] [-p \x7bmaui,winui,wpf\x7d] [--all-platforms] [-v] " ++
    "[inputs ...]"

/-- The part of the disk that a command line can look at. -/
def visibleTree (argv : List String) (env : Environment) (now : LogMoment) (tree : FileTree) :
    IO FileTree := do
  match (CommandLine.parse argv).toOption.bind fun args =>
      (Command.plan .builtIn args env tree).toOption with
  | none => return tree
  | some (config, _) =>
    let tree ← config.inputs.foldlM Disk.copyAll tree
    let tree ← Disk.copyAll tree config.outputRoot
    match config.logDirectory with
    | some directory => Disk.copyPath tree (directory.join (Journal.fileName now))
    | none => return tree

/-- Carries out a command line.  It is carried out twice on the tree, the first time to measure how long
it takes. -/
def carryOut (argv : List String) : IO UInt32 := do
  let started ← IO.monoMsNow
  let now ← Host.moment
  let tree ← Disk.copyPath (.empty (← Disk.here)) Config.defaultEnvFile
  let envFile := match tree.read Config.defaultEnvFile with
    | .ok bytes => SourceFile.lineFeeds ((Text.Utf8.decode bytes).toOption.getD [])
    | .error _ => []
  let env ← Host.environment envFile
  let tree ← visibleTree argv env now tree
  let _ ← IO.lazyPure fun _ => Command.run .builtIn now ⟨0, 0⟩ argv env tree
  let figures : Figures := ⟨(← IO.monoMsNow) - started, ← Host.memoryInUse⟩
  match Command.run .builtIn now figures argv env tree with
  | .error .help => IO.println usage; return 0
  | .error .usage => IO.eprintln usage; return 2
  | .ok outcome =>
    for line in outcome.console do
      IO.println line
    Disk.copyBack tree outcome.tree
    match outcome.ending with
    | .exit code errorText => IO.eprint errorText; return code.toUInt32
    | .broken error => IO.eprintln error.message; return 1

end PlatformClasses

/-- Generates the platform classes of a model. -/
def main (args : List String) : IO UInt32 :=
  PlatformClasses.carryOut args

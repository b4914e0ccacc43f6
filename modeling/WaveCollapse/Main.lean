import WaveCollapse.Run.Comparison
import WaveCollapse.Settings.Resolve

/-! # The command line

Fetches the files that the command line and the settings name, performs the run and hands
on what it left: what it printed, its journal and its files. All decisions are the
library's. -/

namespace WaveCollapse.CommandLine

/-- The options, one a line. -/
def usage : String :=
  let option (f : Field) : String :=
    if f.isFlag then s!"  --{Arguments.optionName f}\n"
    else s!"  --{Arguments.optionName f} <value>\n"
  "Usage: wave-collapse [OPTIONS]\n\nOptions:\n  --settings <file>\n" ++
    String.join (Field.all.map option) ++ "  --help\n  --version\n"

/-- What is wrong with a command line. -/
def complaint : UsageError → String
  | .unknownArgument => "error: unexpected argument"
  | .invalidNumber => "error: invalid number or duration"
  | .invalidValue => "error: invalid or missing value"
  | .repeated => "error: option given more than once"
  | .unexpectedValue => "error: unexpected value for a flag"
  | .help | .version => ""

/-- Measures in nanoseconds. -/
def stopwatch : Stopwatch IO where
  measure f := do
    let before ← IO.monoNanosNow
    let a ← IO.lazyPure f
    let nanos := (← IO.monoNanosNow) - before
    return (a, ⟨nanos / Duration.nanosPerSecond, nanos % Duration.nanosPerSecond⟩)

/-- The words of runs that are given no seed. -/
def spare : IO WordStream := do
  return .ofBytes (← IO.getRandomBytes 32)

/-- The variables that may hold settings, as far as they are set. -/
def environment : IO (List (String × String)) := do
  let names := Field.all.flatMap fun f => ["XWFC_" ++ f.name.toUpper, "xwfc_" ++ f.name]
  names.filterMapM fun name => do
    return (← IO.getEnv name).map (name, ·)

/-- The store with the file that a path names, if it can be read. -/
def fetch (files : Files) (path : String) : IO Files :=
  tryCatch (do return files.provide path (.file (← IO.FS.readBinFile path))) fun
    | .inappropriateType .. => return files.provide path .directory
    | _ => return files

/-- Writes a file of the store. -/
def deliver : List String × Entry → IO Unit
  | (place, .file content) => IO.FS.writeBinFile ("/".intercalate place) content
  | (_, .directory) => pure ()

/-- Performs a run and hands on what it left. -/
def perform (s : Settings) (files : Files) : IO UInt32 := do
  let files ← s.ruleFile.toList.foldlM fetch files
  let saved := s.outputPath :: (s.snapshotPath.toList ++ s.benchmarkTable.toList)
  let files := saved.foldl Files.openWay files
  let stdout ← IO.getStdout
  let start : Workspace :=
    { files, color := ← stdout.isTty, journal := { threshold := some s.logLevel } }
  let (result, after) ← (s.perform stopwatch (← spare)).run.run start
  for record in after.journal.records do
    IO.eprintln record.line
  stdout.putStr after.printed
  let written := after.files.entries.take (after.files.entries.length - files.entries.length)
  written.reverse.forM deliver
  match result with
  | .ok _ => return 0
  | .error e =>
    IO.eprintln ("Error: " ++ e.message)
    return 1

end WaveCollapse.CommandLine

open WaveCollapse in
/-- Runs with the arguments of the command line. -/
def main (line : List String) : IO UInt32 := do
  match Arguments.parse line with
  | .error .help =>
    (← IO.getStdout).putStr CommandLine.usage
    return 0
  | .error .version =>
    IO.println "wave-collapse"
    return 0
  | .error e =>
    IO.eprintln (CommandLine.complaint e)
    return 2
  | .ok a =>
    let files ← a.settingsFile.toList.foldlM CommandLine.fetch {}
    match a.resolve (← CommandLine.environment) files with
    | .ok s => CommandLine.perform s files
    | .error e =>
      IO.eprintln ("Error: " ++ e.message)
      return 1

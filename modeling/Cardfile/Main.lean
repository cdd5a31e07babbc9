import Std.Time.Zoned
import Cardfile.CommandLine

/-!
# The program

Looks at the files that the settings name, runs the lines of standard input
one by one, and writes the record file after every line that changed it.
-/

namespace Cardfile.Program

/-- The current day. -/
def today : IO Today := do
  let now ← Std.Time.PlainDate.now
  let date := Date.of? now.year.toInt now.month.val.toNat now.day.val.toNat
  pure { date := date.getD Date.epoch }

/-- The names of the environment that are settings. -/
def settingNames : List String :=
  ["STORAGE", "PATH", "RULES", "RULES_FILE", "BIND"].map
    ("FILECABINET_" ++ ·)

/-- The settings in the environment. -/
def environment : IO (List (String × String)) :=
  settingNames.filterMapM fun name => do
    pure ((← IO.getEnv name).map (name, ·))

/-- The path that names make up. -/
def pathOf (names : List String) : String :=
  match names with
  | "/" :: rest => "/" ++ "/".intercalate rest
  | names => "/".intercalate names

/-- Whether there is a folder at a place: only in a folder does a lone dot
lead anywhere. -/
def isFolder (names : List String) : IO Bool := do
  try
    discard (IO.FS.realPath (pathOf names ++ "/."))
    pure true
  catch _ => pure false

/-- The names that lead from a start along a path, as far as they can be told
without looking. -/
def follow (start : List String) : List String → List (List String)
  | [] => []
  | name :: rest =>
      if name = "" ∨ name = "." then follow start rest
      else if name = ".." then follow (Directory.parentOf start) rest
      else (start ++ [name]) :: follow (start ++ [name]) rest

/-- Adds what lies along a path to a directory. -/
def look (directory : Directory) (path : String) : IO Directory := do
  let (start, names) := Directory.namesOf path
  (follow start names).foldlM
    (fun directory place => do
      if ← isFolder place then
        pure { directory with folders := place :: directory.folders }
      else
        try
          let bytes ← IO.FS.readBinFile (pathOf place)
          pure (directory.put place bytes.toList)
        catch _ => pure directory)
    directory

/-- The paths at which a settings file may be. -/
def settingsPaths : List String :=
  CommandLine.settingsName :: Settings.Format.endings.map
    fun (ending, _) => CommandLine.settingsName ++ "." ++ ending

/-- Everything that a run may look at. -/
def lookAround (environment : List (String × String)) : IO Directory := do
  let directory ← settingsPaths.foldlM look {}
  match Settings.load directory environment CommandLine.settingsName with
  | .error _ => pure directory
  | .ok settings =>
      (settings.rulesFile.toList ++ settings.recordPath?.toList).foldlM look
        directory

/-- Writes the files that differ between two directories. -/
def write (before after : Directory) : IO Unit :=
  for (names, bytes) in after.files do
    if before.file? names != some bytes then
      IO.FS.writeBinFile (pathOf names) ⟨bytes.toArray⟩

/-- Runs the lines of an input. -/
partial def serve (input : IO.FS.Stream) (run : CommandLine.Run)
    (written : Directory) : IO Unit := do
  let line ← input.getLine
  if line.isEmpty then return
  let (lines, run) := run.step line
  for shown in lines do
    IO.println shown
  let directory := run.finish
  write written directory
  serve input run directory

end Cardfile.Program

open Cardfile Cardfile.Program in
/-- Reads statements from standard input. -/
def main (arguments : List String) : IO UInt32 := do
  let environment ← environment
  let directory ← lookAround environment
  match CommandLine.start (← today) environment arguments directory with
  | (.error fault, after) =>
      write directory after
      IO.eprintln ("Error: " ++ fault.message)
      pure 1
  | (.ok run, after) =>
      write directory after
      serve (← IO.getStdin) run after
      pure 0

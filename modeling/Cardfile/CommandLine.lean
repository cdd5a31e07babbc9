import Cardfile.Engine
import Cardfile.Fingerprint
import Cardfile.Settings.Basic

/-!
# The command line

A run reads statements, one to a line, and writes what they come to.  Blank
lines and lines that start with two hyphens are passed over.  A run that
cannot start writes nothing.
-/

namespace Cardfile.CommandLine

/-- The name of the settings file. -/
def settingsName : String := "filecabinet"

/-- A run between two lines.  The place is that of its record file. -/
structure Run where
  engine : Engine
  store : Store
  directory : Directory
  place : Option (List String)

/-- Opens the store that the settings ask for.  A record file is made before
it is looked into. -/
def openStore (settings : Settings) (validator : Validator)
    (directory : Directory) :
    Except Fault (Store × Option (List String)) × Directory :=
  let cabinet := Cabinet.empty validator 0
  match settings.recordPath? with
  | none => (.ok (.memory cabinet, none), directory)
  | some path =>
      match directory.openOrCreate path with
      | (.error fault, directory) =>
          (.error (.storage (.file fault)), directory)
      | (.ok place, directory) =>
          let bytes := (directory.file? place).getD []
          match FiledCabinet.ofFile (.ofBytes bytes) cabinet with
          | .error fault => (.error fault, directory)
          | .ok filed => (.ok (.onFile filed, some place), directory)

/-- Starts a run.  Its store is watched twice, for what was asked and for how
long it took. -/
def start (today : Today) (environment : List (String × String))
    (arguments : List String) (directory : Directory) :
    Except Fault Run × Directory :=
  let prepared : Except Fault (Settings × Rules) := do
    let settings ← Settings.load directory environment settingsName
    pure (settings, ← settings.chosenRules directory)
  match prepared with
  | .error fault => (.error fault, directory)
  | .ok (settings, rules) =>
      match openStore settings (rules.validator today) directory with
      | (.error fault, directory) => (.error fault, directory)
      | (.ok (store, place), directory) =>
          match arguments with
          | [] =>
              (.ok
                { engine := .fresh Fingerprint.ofText
                  store := store.watch.watch
                  directory := directory
                  place := place },
                directory)
          | argument :: _ =>
              (.error (.settings (.unknownArgument argument)), directory)

/-- The lines that show an answer. -/
def showAnswer (answer : Answer) : List String :=
  let tabbed (cells : List String) : String := "\t".intercalate cells
  let affected := Nat.repr answer.affected ++ " record(s) affected"
  if !answer.columns.isEmpty then
    tabbed answer.columns :: answer.rows.map tabbed ++
      ["(" ++ Nat.repr answer.rows.length ++ " row(s))"]
  else if answer.ids.isEmpty then [affected]
  else
    let ids := answer.ids.map fun id => "#" ++ Text.showInteger id.toInt
    [affected ++ ": " ++ ", ".intercalate ids]

/-- The lines that show what a statement came to. -/
def showOutcome : Except Fault Answer → List String
  | .ok answer => showAnswer answer
  | .error fault => ["error: " ++ fault.message]

/-- Whether a line without the blanks around it holds no statement. -/
def isPassedOver (line : String) : Bool :=
  line.isEmpty || "--".toList.isPrefixOf line.toList

/-- Takes one line, and gives the lines to be written. -/
def Run.step (run : Run) (line : String) : List String × Run :=
  let line := Text.trim line
  if isPassedOver line then ([], run)
  else
    let (outcome, engine, store) := run.engine.execute run.store line
    (showOutcome outcome, { run with engine := engine, store := store })

/-- The directory with the record file as the run leaves it. -/
def Run.finish (run : Run) : Directory :=
  match run.place, run.store.file? with
  | some place, some file => run.directory.put place file.bytes.toList
  | _, _ => run.directory

/-- The lines of a text; a break at its end starts no further line. -/
def linesOf (text : String) : List String :=
  match (splitLines text.toList).reverse with
  | [] :: before => (before.reverse).map String.ofList
  | lines => lines.reverse.map String.ofList
where
  splitLines : List Char → List (List Char)
    | [] => [[]]
    | '\n' :: rest => [] :: splitLines rest
    | c :: rest =>
        match splitLines rest with
        | line :: lines => (c :: line) :: lines
        | [] => [[c]]

/-- What a whole run comes to: the lines written, whether it succeeded, and
the directory afterwards. -/
structure Outcome where
  written : List String
  succeeded : Bool
  directory : Directory

/-- Runs all lines of an input. -/
def runAll (today : Today) (environment : List (String × String))
    (arguments : List String) (input : String) (directory : Directory) :
    Outcome :=
  match start today environment arguments directory with
  | (.error _, directory) => ⟨[], false, directory⟩
  | (.ok run, _) =>
      let (written, run) := (linesOf input).foldl
        (fun (written, run) line =>
          let (lines, run) := run.step line
          (written ++ lines, run))
        (([] : List String), run)
      ⟨written, true, run.finish⟩

end Cardfile.CommandLine

import Cardfile.Directory
import Cardfile.Settings.Ini
import Cardfile.Settings.JsonFive
import Cardfile.Settings.JsonTree
import Cardfile.Settings.Ron
import Cardfile.Settings.Toml
import Cardfile.Settings.Yaml
import Cardfile.Text.LowerCase
import Cardfile.Validation.RuleFile

/-!
# Settings

Settings come in three layers: what holds unless something else is said, a
file, and the environment.  A later layer wins over an earlier one.
-/

namespace Cardfile

/-- Where records are kept. -/
inductive Storage.Mode where
  | memory
  | file
deriving DecidableEq

/-- What a program is told from outside. -/
structure Settings where
  storage : Storage.Mode := .memory
  path : String := "cabinet.db"
  rules : String := "default"
  rulesFile : Option String := none
  bind : String := "127.0.0.1:8080"
deriving DecidableEq

namespace Settings

/-- The name of a mode of storage in settings. -/
def modeName : Storage.Mode → String
  | .memory => "memory"
  | .file => "file"

/-- The formats of a settings file. -/
inductive Format where
  | toml
  | json
  | yaml
  | ini
  | ron
  | jsonFive
deriving DecidableEq

namespace Format

/-- The endings of file names with their formats, in the order in which they
are tried. -/
def endings : List (String × Format) :=
  [("toml", .toml), ("json", .json), ("yaml", .yaml), ("yml", .yaml),
   ("ini", .ini), ("ron", .ron), ("json5", .jsonFive)]

/-- Reads a text of a format. -/
def read? : Format → String → Option Tree
  | .toml => Toml.read?
  | .json => readJson?
  | .yaml => Yaml.read?
  | .ini => Ini.read?
  | .ron => Ron.read?
  | .jsonFive => JsonFive.read?

end Format

/-- The ending of the last name of a path: what stands behind its last point,
unless that is its first character. -/
def endingOf (path : String) : String :=
  let name := (path.toList.reverse.takeWhile (· != '/')).reverse
  let reversed := name.reverse
  match reversed.dropWhile (· != '.') with
  | _ :: _ :: _ => String.ofList (reversed.takeWhile (· != '.')).reverse
  | _ => ""

/-- The bytes of the settings file with a name, and their format.  The name
may have its ending or lack it; a file with an unknown ending is none. -/
def findFile? (directory : Directory) (name : String) :
    Option (Format × List UInt8) :=
  match directory.read name with
  | .ok bytes => (Format.endings.lookup (endingOf name)).map (·, bytes)
  | .error _ =>
      Format.endings.findSome? fun (ending, format) =>
        (directory.read (name ++ "." ++ ending)).toOption.map (format, ·)

/-- The entries of a settings file; a mark of the byte order at its front is
passed over. -/
def readFile? (format : Format) (bytes : List UInt8) :
    Option (List (String × Tree)) := do
  let text := Text.Utf8.decode bytes
  let text := match text.toList with
    | '\uFEFF' :: rest => String.ofList rest
    | _ => text
  match ← format.read? text with
  | .table entries => some entries
  | _ => none

/-- What the names of the environment start with, in lower case. -/
def environmentStart : List Char := "filecabinet_".toList

/-- The entries of the environment that are settings. -/
def ofEnvironment (environment : List (String × String)) :
    List (String × Tree) :=
  environment.filterMap fun (name, value) =>
    let key := (Text.lowerCase name).toList
    if environmentStart.isPrefixOf key then
      some (String.ofList (key.drop environmentStart.length), .text value)
    else none

/-- The first layer. -/
def defaults : Tree :=
  let standard : Settings := {}
  .table
    [("storage", .text (modeName standard.storage)),
     ("path", .text standard.path), ("rules", .text standard.rules),
     ("bind", .text standard.bind)]

/-- The text that a setting gives. -/
def shown? : Option Tree → Option String
  | some (.text content) => some content
  | some (.plain shown) => some shown
  | _ => none

/-- The mode of storage with a name. -/
def mode? (name : String) : Option Storage.Mode :=
  if name = modeName .memory then some .memory
  else if name = modeName .file then some .file
  else none

/-- The mode of storage that a setting gives: by its name, or by the only key
of a table. -/
def storage? : Option Tree → Option Storage.Mode
  | some (.text name) => mode? name
  | some (.table [(name, _)]) => mode? name
  | _ => none

/-- The settings that a tree gives. -/
def ofTree? (tree : Tree) : Option Settings := do
  let storage ← storage? (tree.get? "storage")
  let path ← shown? (tree.get? "path")
  let rules ← shown? (tree.get? "rules")
  let rulesFile ← match tree.get? "rules_file" with
    | none => some none
    | some .absent => some none
    | found => (shown? found).map some
  let bind ← shown? (tree.get? "bind")
  pure
    { storage := storage, path := path, rules := rules,
      rulesFile := rulesFile, bind := bind }

/-- Puts the layers together. -/
def load (directory : Directory) (environment : List (String × String))
    (name : String) : Except Fault Settings := do
  let entries ← match findFile? directory name with
    | none => pure []
    | some (format, bytes) =>
        match readFile? format bytes with
        | some entries => pure entries
        | none => throw (.settings .unreadable)
  let tree :=
    Tree.laySource (ofEnvironment environment)
      (Tree.laySource entries defaults)
  match ofTree? tree with
  | some settings => pure settings
  | none => throw (.settings .unreadable)

/-- The path of the record file, if records are kept in one. -/
def recordPath? (settings : Settings) : Option String :=
  match settings.storage with
  | .memory => none
  | .file => some settings.path

/-- The rule sets of a file. -/
def ruleSets (directory : Directory) (path : String) :
    Except Fault (List (String × Rules)) :=
  match directory.readText path with
  | .error fault => .error (.settings (.rulesFile path fault))
  | .ok text =>
      match Rules.readSets? text with
      | some sets => .ok sets
      | none => .error (.settings .badRules)

/-- The rules that the settings choose. -/
def chosenRules (settings : Settings) (directory : Directory) :
    Except Fault Rules := do
  let sets ← match settings.rulesFile with
    | none => pure []
    | some path => ruleSets directory path
  Rules.named settings.rules sets

end Settings

end Cardfile

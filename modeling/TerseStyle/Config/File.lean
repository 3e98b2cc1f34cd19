/-
Loading a configuration file. Its format follows from the extension, which is looked at before the file is read. The
decoders of both formats are taken from outside.
-/
import TerseStyle.Config.JsonForm
import TerseStyle.Config.TomlForm
import TerseStyle.Files.Tree

namespace TerseStyle.Config

/-- why a configuration cannot be loaded -/
inductive LoadError where
  | unsupportedFormat (path : Text)
  | file (fault : Files.Fault)
  | toml
  | json (fault : Json.Fault)
  deriving DecidableEq, Repr

namespace LoadError

/-- the wording of an error -/
def message : LoadError → Text
  | unsupportedFormat path =>
    "Unsupported config format for '".toList ++ path ++ "' (expected .toml or .json)".toList
  | file fault => fault.message
  | toml => "invalid TOML".toList
  | json _ => "invalid JSON".toList

end LoadError

/-! ## Decoding -/

/-- what reads the contents of configuration files -/
structure Decoders where
  toml : Text → Option Overrides
  json : Text → Except Json.Fault Overrides

namespace Decoders

/-- the settings of a text in TOML -/
def settingsOfToml (decoders : Decoders) (source : Text) : Except LoadError Settings :=
  match decoders.toml source with
  | some o => .ok o.settings
  | none => .error .toml

/-- the settings of a text in JSON -/
def settingsOfJson (decoders : Decoders) (source : Text) : Except LoadError Settings :=
  match decoders.json source with
  | .ok o => .ok o.settings
  | .error fault => .error (.json fault)

end Decoders

/-! ## Loading -/

/-- reads the file at a path -/
def readFile (disk : Files.Disk) (path : Text) : Except LoadError Text :=
  match disk.read path with
  | .ok t => .ok t
  | .error fault => .error (.file fault)

/-- loads the settings from the file at a path -/
def Decoders.load (decoders : Decoders) (disk : Files.Disk) (path : Text) : Except LoadError Settings :=
  if Files.extension? path = some "toml".toList then do decoders.settingsOfToml (← readFile disk path)
  else if Files.extension? path = some "json".toList then do decoders.settingsOfJson (← readFile disk path)
  else .error (.unsupportedFormat path)

/-! ## The decoders of the command line -/

/-- the decoders of this project -/
def Decoders.standard : Decoders := ⟨ofToml, ofJson⟩

/-- the settings of a text in TOML -/
def settingsOfToml (source : Text) : Except LoadError Settings := Decoders.standard.settingsOfToml source

/-- the settings of a text in JSON -/
def settingsOfJson (source : Text) : Except LoadError Settings := Decoders.standard.settingsOfJson source

/-- loads the settings from the file at a path from the root -/
def load (tree : Files.Tree) (path : Text) : Except LoadError Settings := Decoders.standard.load { tree } path

end TerseStyle.Config

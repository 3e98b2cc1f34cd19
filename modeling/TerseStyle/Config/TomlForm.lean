/-
Configuration files in TOML. Unknown keys are skipped; a known key must hold a value of the right shape.
-/
import TerseStyle.Config.Overrides
import TerseStyle.Toml.Parse

namespace TerseStyle.Config

open Toml (Value)

/-! ## Values of a known shape -/

/-- a string -/
def textOf : Value → Option Text
  | .text t => some t
  | _ => none

/-- a truth value -/
def truthOf : Value → Option Bool
  | .truth b => some b
  | _ => none

/-- the entries of a table -/
def tableOf : Value → Option (List (Text × Value))
  | .table _ entries => some entries
  | _ => none

/-- the items of an array, or of tables under headers in double brackets -/
def itemsOf : Value → Option (List Value)
  | .array items => some items
  | .tables items => some items
  | _ => none

/-- a dictionary of strings -/
def dictionaryOf (v : Value) : Option (List (Text × Text)) := do
  (← tableOf v).mapM fun (key, v) => do return (key, ← textOf v)

/-- strings -/
def textsOf (v : Value) : Option (List Text) := do (← itemsOf v).mapM textOf

/-- an icon escape: a table, or an array of its parts in order -/
def iconEscapeOf (v : Value) : Option IconEscape :=
  match v with
  | .table _ entries => do
    let marker ← Toml.valueAt? markerKey entries
    let expression ← Toml.valueAt? expressionKey entries
    return ⟨← textOf marker, ← textOf expression⟩
  | .array (marker :: expression :: _) => do return ⟨← textOf marker, ← textOf expression⟩
  | _ => none

/-- icon escapes -/
def iconEscapesOf (v : Value) : Option (List IconEscape) := do (← itemsOf v).mapM iconEscapeOf

/-! ## The file -/

/-- sets a field to a value -/
def setField (o : Overrides) (f : Field) (v : Value) : Option Overrides :=
  match f with
  | .replaceVocabulary => do return { o with replaceVocabulary := ← truthOf v }
  | .classes => do return { o with classes := ← dictionaryOf v }
  | .propertyPrefixes => do return { o with propertyPrefixes := ← dictionaryOf v }
  | .root => do return { o with root := some (← textOf v) }
  | .chainAttributes => do return { o with chainAttributes := some (← textsOf v) }
  | .mergeFunction => do return { o with mergeFunction := some (← textOf v) }
  | .iconEscapes => do return { o with iconEscapes := some (← iconEscapesOf v) }

/-- the entries of a file, one after another -/
def ofEntries (o : Overrides) : List (Text × Value) → Option Overrides
  | [] => some o
  | (key, v) :: rest =>
    match Field.ofKey? key with
    | none => ofEntries o rest
    | some f => do ofEntries (← setField o f v) rest

/-- reads a configuration file in TOML -/
def ofToml (source : Text) : Option Overrides := do ofEntries {} (← Toml.parse source)

end TerseStyle.Config

/-
Configuration files in JSON. The file is an object, or an array of the fields in order; so is an icon escape. Unknown keys
are skipped, and a known key must not occur twice.
-/
import TerseStyle.Config.Overrides
import TerseStyle.Json.Scan

namespace TerseStyle.Config

open Json Json.Scan

/-! ## Icon escapes -/

/-- an icon escape of which some parts are read -/
structure PartialIcon where
  marker : Option Text := none
  expression : Option Text := none

/-- the icon escape, if it is complete -/
def PartialIcon.complete (p : PartialIcon) : Scan IconEscape :=
  match p.marker, p.expression with
  | some marker, some expression => return ⟨marker, expression⟩
  | _, _ => throw .mismatched

/-- an entry of an icon escape -/
def iconEntry (key : Text) (p : PartialIcon) : Scan PartialIcon := do
  if key = markerKey then
    if p.marker.isSome then throw .mismatched
    colon
    return { p with marker := some (← string) }
  else if key = expressionKey then
    if p.expression.isSome then throw .mismatched
    colon
    return { p with expression := some (← string) }
  else
    colon
    skipValue
    return p

/-- an element that must be there -/
def requiredElement (first : Bool) : Scan Text := do
  if ← anotherElement first then string else throw .mismatched

/-- an icon escape -/
def iconEscape : Scan IconEscape := do
  match ← peek with
  | some '{' =>
    skip
    (← entries iconEntry {}).complete
  | some '[' =>
    skip
    let marker ← requiredElement true
    let expression ← requiredElement false
    arrayEnd
    return ⟨marker, expression⟩
  | _ => mismatch

/-! ## The file -/

/-- reads the value of a field -/
def fieldValue (f : Field) (o : Overrides) : Scan Overrides := do
  match f with
  | .replaceVocabulary => return { o with replaceVocabulary := ← truth }
  | .classes => return { o with classes := ← dictionary }
  | .propertyPrefixes => return { o with propertyPrefixes := ← dictionary }
  | .root => return { o with root := ← optional string }
  | .chainAttributes => return { o with chainAttributes := ← optional (array string) }
  | .mergeFunction => return { o with mergeFunction := ← optional string }
  | .iconEscapes => return { o with iconEscapes := ← optional (array iconEscape) }

/-- an entry of the file, with the fields that were given before -/
def fileEntry (key : Text) (state : Overrides × List Field) : Scan (Overrides × List Field) := do
  match Field.ofKey? key with
  | none =>
    colon
    skipValue
    return state
  | some f =>
    if state.2.contains f then throw .mismatched
    colon
    return (← fieldValue f state.1, f :: state.2)

/-- the fields of a file given as an array, as many as there are -/
def fieldElements : List Field → (first : Bool) → Overrides → Scan Overrides
  | [], _, o => return o
  | f :: rest, first, o => do
    if ← anotherElement first then fieldElements rest false (← fieldValue f o) else return o

/-- the contents of a file -/
def jsonFile : Scan Overrides := do
  match ← peek with
  | some '{' =>
    skip
    return (← entries fileEntry ({}, [])).1
  | some '[' =>
    skip
    let o ← fieldElements Field.all true {}
    arrayEnd
    return o
  | _ => mismatch

/-- reads a configuration file in JSON -/
def ofJson (source : Text) : Except Fault Overrides := (whole jsonFile source).map Prod.fst

end TerseStyle.Config

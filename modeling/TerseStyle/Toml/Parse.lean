/-
Reading TOML documents.
-/
import TerseStyle.Toml.Scalar

namespace TerseStyle.Toml

open Scan

/-! ## Values -/

/-- values up to a closing bracket, with a comma between two and possibly behind the last -/
def arrayUpTo (value : Scan Value) : (bound : Nat) → Scan (List Value)
  | 0 => fail
  | bound + 1 => do
    gap
    if ← eat "]" then return []
    let v ← value
    gap
    if ← eat "," then return v :: (← arrayUpTo value bound)
    expect "]"
    return [v]

/-- a key with its value -/
def keyValue (value : Scan Value) : Scan ((List Text × Text) × Value) := do
  let k ← key
  expect "="
  spaces
  return (k, ← value)

/-- entries up to a closing brace, with a comma between each two -/
def inlineUpTo (value : Scan Value) : (bound : Nat) → List (Text × Value) → Scan (List (Text × Value))
  | 0, _ => fail
  | bound + 1, found => do
    let ((path, last), v) ← keyValue value
    match setDotted v path last found with
    | none => fail
    | some found =>
      spaces
      if ← eat "," then inlineUpTo value bound found
      else
        expect "\x7d"
        return found

/-- a table in braces, whose opening brace is read -/
def inlineTable (value : Scan Value) : Scan Value := do
  spaces
  if ← eat "\x7d" then return .table .inline []
  return .table .inline (← inlineUpTo value ((← get).length + 1) [])

/-- a value of at most `depth` nested brackets -/
def valueUpTo : (depth : Nat) → Scan Value
  | 0 => fail
  | depth + 1 => do
    if let some t ← string then return .text t
    if ← eat "[" then return .array (← arrayUpTo (valueUpTo depth) ((← get).length + 1))
    if ← eat "\x7b" then return ← inlineTable (valueUpTo depth)
    scalar

/-- a value -/
def value : Scan Value := do valueUpTo ((← get).length + 1)

/-! ## Documents -/

/-- what was read so far: the header in force and all entries -/
structure Document where
  path : List Text
  entries : List (Text × Value)

/-- a header -/
def header (d : Document) : Scan Document := do
  let further ← eat "[["
  unless further do expect "["
  let (path, last) ← key
  expect (if further then "]]" else "]")
  lineEnd
  match openHeader further path last d.entries with
  | some entries => return ⟨path ++ [last], entries⟩
  | none => fail

/-- an entry under the header in force -/
def entry (d : Document) : Scan Document := do
  let ((path, last), v) ← keyValue value
  lineEnd
  match along (setDotted v path last) d.path d.entries with
  | some entries => return { d with entries }
  | none => fail

/-- the statements of a document, at most `bound` -/
def statements : (bound : Nat) → Document → Scan Document
  | 0, _ => fail
  | bound + 1, d => do
    gap
    match ← here with
    | none => return d
    | some '[' => statements bound (← header d)
    | some _ => statements bound (← entry d)

/-- reads a document; a byte order mark in front does not count -/
def parse (source : Text) : Option (List (Text × Value)) := do
  let t := if source.head? = some '\ufeff' then source.drop 1 else source
  let (d, _) ← statements (t.length + 1) ⟨[], []⟩ t
  return d.entries

end TerseStyle.Toml

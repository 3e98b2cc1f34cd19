/-
TOML documents as values. A table remembers how it came about, because that decides what may be added to it later: a
table under a header can be given once, one that dotted keys or longer headers made can be extended in the same way, and
one written in braces is closed.
-/
import TerseStyle.Text.Basic

namespace TerseStyle.Toml

/-- how a table came about -/
inductive Origin where
  /-- written in braces -/
  | inline
  /-- made by a longer header -/
  | implied
  /-- made by dotted keys -/
  | dotted
  /-- under a header of its own -/
  | headed
  deriving DecidableEq, Repr

/-- a value; of numbers and dates it is only known that they are well-formed -/
inductive Value where
  | text (t : Text)
  | truth (b : Bool)
  | scalar
  | array (items : List Value)
  | table (origin : Origin) (entries : List (Text × Value))
  /-- the tables under headers in double brackets -/
  | tables (items : List Value)

/-- the value under a key -/
def valueAt? (key : Text) (entries : List (Text × Value)) : Option Value := entries.lookup key

/-- changes the value under a key, if that is possible; a new key comes last -/
def changeAt (key : Text) (change : Option Value → Option Value) :
    List (Text × Value) → Option (List (Text × Value))
  | [] => (change none).map fun v => [(key, v)]
  | (k, v) :: rest =>
    if k = key then (change (some v)).map fun v => (k, v) :: rest
    else (changeAt key change rest).map ((k, v) :: ·)

/-- changes the last of some items -/
def changeLast (change : Value → Option Value) : List Value → Option (List Value)
  | [] => none
  | [v] => (change v).map ([·])
  | v :: rest => (changeLast change rest).map (v :: ·)

namespace Value

/-- a table changed by its entries, wherever a header may lead to -/
def changeEntries (change : List (Text × Value) → Option (List (Text × Value))) : Value → Option Value
  | table origin entries => if origin = .inline then none else (change entries).map (table origin ·)
  | tables items =>
    (changeLast (fun item =>
      match item with
      | table origin entries => (change entries).map (table origin ·)
      | _ => none) items).map tables
  | _ => none

end Value

/-! ## Headers -/

/-- goes along the keys of a header and changes the entries that it leads to -/
def along (change : List (Text × Value) → Option (List (Text × Value))) :
    (path : List Text) → List (Text × Value) → Option (List (Text × Value))
  | [], entries => change entries
  | key :: path, entries =>
    changeAt key (fun
      | none => (along change path []).map (.table .implied ·)
      | some v => v.changeEntries (along change path)) entries

/-- opens the table of a header -/
def openTable : Option Value → Option Value
  | none => some (.table .headed [])
  | some (.table .implied entries) => some (.table .headed entries)
  | _ => none

/-- opens a further table of a header in double brackets -/
def openFurther : Option Value → Option Value
  | none => some (.tables [.table .headed []])
  | some (.tables items) => some (.tables (items ++ [.table .headed []]))
  | _ => none

/-- opens what a header names -/
def openHeader (further : Bool) (path : List Text) (last : Text) (entries : List (Text × Value)) :
    Option (List (Text × Value)) :=
  along (changeAt last (if further then openFurther else openTable)) path entries

/-! ## Keys -/

/-- sets a new value under a dotted key -/
def setDotted (v : Value) : (path : List Text) → (last : Text) → List (Text × Value) → Option (List (Text × Value))
  | [], last, entries => changeAt last (fun found => if found.isSome then none else some v) entries
  | key :: path, last, entries =>
    changeAt key (fun
      | none => (setDotted v path last []).map (.table .dotted ·)
      | some (.table .dotted inner) => (setDotted v path last inner).map (.table .dotted ·)
      | some (.table .implied inner) => (setDotted v path last inner).map (.table .implied ·)
      | some _ => none) entries

end TerseStyle.Toml

/-
Dictionaries from texts to texts: a list of entries in which no key occurs twice. An insertion overrides an older entry
under the same key, and `extend` inserts the entries of another dictionary, so that its entries win.
-/
import TerseStyle.Text.Basic

namespace TerseStyle

/-- a finite map from texts to texts; the order of the entries carries no meaning -/
structure Dictionary where
  entries : List (Text × Text)
  nodup : (entries.map Prod.fst).Nodup

namespace Dictionary

/-- no entries -/
def empty : Dictionary := ⟨[], by simp⟩

/-- the value under a key -/
def get? (d : Dictionary) (key : Text) : Option Text := d.entries.lookup key

/-- the number of keys -/
def size (d : Dictionary) : Nat := d.entries.length

/-- sets the value under a key -/
def insert (d : Dictionary) (key value : Text) : Dictionary where
  entries := (key, value) :: d.entries.filter fun e => e.1 ≠ key
  nodup := by
    rw [List.map_cons, List.nodup_cons]
    constructor
    · simp [List.mem_map]
    · exact d.nodup.sublist (List.filter_sublist.map Prod.fst)

/-- sets the values of entries, the later ones over the earlier ones -/
def insertAll (d : Dictionary) (entries : List (Text × Text)) : Dictionary :=
  entries.foldl (fun d e => d.insert e.1 e.2) d

/-- the dictionary of some entries; of two under one key the later one counts -/
def ofList (entries : List (Text × Text)) : Dictionary := empty.insertAll entries

/-- lays another dictionary over this one -/
def extend (d top : Dictionary) : Dictionary := d.insertAll top.entries

/-- the entries that are missing from, or different in, another dictionary -/
def newEntries (d base : Dictionary) : List (Text × Text) :=
  d.entries.filter fun e => base.get? e.1 ≠ some e.2

end Dictionary

end TerseStyle

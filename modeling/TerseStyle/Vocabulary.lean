/-
The vocabulary of a style chain: which classes a short name stands for, and which utility class prefix a style property
has. Both are partial; a short name with an empty entry stands for itself.
-/
import TerseStyle.Dictionary

namespace TerseStyle

/-- the two tables that candidates are looked up in -/
structure Vocabulary where
  classes : Dictionary
  propertyPrefixes : Dictionary

namespace Vocabulary

/-- no entries at all -/
def empty : Vocabulary := ⟨.empty, .empty⟩

/-- the classes that a short name stands for -/
def classOf? (v : Vocabulary) (key : Text) : Option Text :=
  (v.classes.get? key).map fun mapped => if mapped.isEmpty then key else mapped

/-- the utility class prefix of a style property -/
def prefixOf? (v : Vocabulary) (property : Text) : Option Text := v.propertyPrefixes.get? property

/-- lays another vocabulary over this one -/
def extend (v top : Vocabulary) : Vocabulary :=
  ⟨v.classes.extend top.classes, v.propertyPrefixes.extend top.propertyPrefixes⟩

end Vocabulary

end TerseStyle

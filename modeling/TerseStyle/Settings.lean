/-
Settings of a rewrite: the vocabulary, the root name of chains, the attributes that hold chains, the function that merges
class values, and the icon escapes.
-/
import TerseStyle.Vocabulary.Standard

namespace TerseStyle

/-- a marker that is taken out of a chain, and the expression interpolated behind its classes when it occurred -/
structure IconEscape where
  marker : Text
  expression : Text
  deriving DecidableEq, Repr

/-- everything that a rewrite depends on besides its source -/
structure Settings where
  vocabulary : Vocabulary
  /-- the name that every chain starts with -/
  root : Text
  /-- the names of the attributes that hold a chain -/
  chainAttributes : List Text
  /-- the function that merges a class that was already there with the classes of a chain -/
  mergeFunction : Text
  iconEscapes : List IconEscape

namespace Settings

/-- the settings in force without a configuration -/
def standard : Settings where
  vocabulary := .standard
  root := "SS".toList
  chainAttributes := ["ss".toList, "use:ss".toList]
  mergeFunction := "clsx".toList
  iconEscapes :=
    [⟨"[icon as 'icon']".toList, "icon".toList⟩, ⟨"[p.image as 'icon']".toList, "p.image".toList⟩]

/-- whether an attribute holds a chain -/
def isChainAttribute (s : Settings) (name : Text) : Bool := s.chainAttributes.contains name

end Settings

end TerseStyle

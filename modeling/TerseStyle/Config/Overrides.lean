/-
What a configuration file says. It is laid over the standard settings: its vocabulary extends the standard one, or
replaces it, and every other field that is given takes the place of the standard one.
-/
import TerseStyle.Settings

namespace TerseStyle.Config

/-- the contents of a configuration file; a field that is left out changes nothing -/
structure Overrides where
  /-- whether the standard vocabulary is dropped -/
  replaceVocabulary : Bool := false
  classes : List (Text × Text) := []
  propertyPrefixes : List (Text × Text) := []
  root : Option Text := none
  chainAttributes : Option (List Text) := none
  mergeFunction : Option Text := none
  iconEscapes : Option (List IconEscape) := none
  deriving DecidableEq, Repr

namespace Overrides

/-- the vocabulary that a file defines -/
def vocabulary (o : Overrides) : Vocabulary := ⟨.ofList o.classes, .ofList o.propertyPrefixes⟩

/-- lays a file over settings -/
def apply (o : Overrides) (s : Settings) : Settings where
  vocabulary := if o.replaceVocabulary then o.vocabulary else s.vocabulary.extend o.vocabulary
  root := o.root.getD s.root
  chainAttributes := o.chainAttributes.getD s.chainAttributes
  mergeFunction := o.mergeFunction.getD s.mergeFunction
  iconEscapes := o.iconEscapes.getD s.iconEscapes

/-- the settings that a file stands for -/
def settings (o : Overrides) : Settings := o.apply .standard

end Overrides

/-! ## Fields -/

/-- the fields of a configuration file, in order -/
inductive Field where
  | replaceVocabulary
  | classes
  | propertyPrefixes
  | root
  | chainAttributes
  | mergeFunction
  | iconEscapes
  deriving DecidableEq, Repr

namespace Field

/-- all fields -/
def all : List Field :=
  [replaceVocabulary, classes, propertyPrefixes, root, chainAttributes, mergeFunction, iconEscapes]

/-- the key of a field -/
def key : Field → Text
  | replaceVocabulary => "replace_tables".toList
  | classes => "lookups".toList
  | propertyPrefixes => "style_prefixes".toList
  | root => "dsl_root".toList
  | chainAttributes => "dsl_attributes".toList
  | mergeFunction => "class_merge_fn".toList
  | iconEscapes => "icon_escapes".toList

/-- the field of a key -/
def ofKey? (key : Text) : Option Field := all.find? fun f => f.key = key

end Field

/-- the key of an icon escape's marker -/
def markerKey : Text := "marker".toList

/-- the key of an icon escape's expression -/
def expressionKey : Text := "expression".toList

end TerseStyle.Config

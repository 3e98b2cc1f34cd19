/-
Keys of a style object. A property name in camel case is written with hyphens, and a key that is no plain identifier
is quoted.
-/
import TerseStyle.Text.Basic

namespace TerseStyle.Rewrite

/-- writes upper-case ASCII letters as a hyphen and the lower-case letter -/
def hyphenateLetters (t : Text) : Text :=
  t.flatMap fun c => if c.isUpper then ['-', c.toLower] else [c]

/-- writes a property name in camel case with hyphens; a custom property, which starts with two hyphens, is left alone -/
def hyphenate : Text → Text
  | '-' :: '-' :: rest => '-' :: '-' :: rest
  | t => hyphenateLetters t

/-- ASCII characters that a plain identifier goes on with -/
def isPlainIdentifierPart (c : Char) : Bool := c.isAlphanum || c = '_' || c = '$'

/-- whether a key can be written without quotes -/
def isPlainIdentifier : Text → Bool
  | [] => false
  | c :: rest => !c.isDigit && (c :: rest).all isPlainIdentifierPart

end TerseStyle.Rewrite

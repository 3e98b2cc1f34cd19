/-
The languages of the command line, which are read and printed by this project itself.
-/
import TerseStyle.Script.Language
import TerseStyle.Script.Parentheses
import TerseStyle.Script.Parse
import TerseStyle.Script.Print

namespace TerseStyle.Script

/-- the language of a dialect -/
def Dialect.language (d : Dialect) : Language where
  script := parse d
  expression := parseExpression d
  print := fun tree => tree.canonical.print

/-- the language of a file -/
def Language.ofFile (path : Text) : Language := (Dialect.ofFile path).language

end TerseStyle.Script

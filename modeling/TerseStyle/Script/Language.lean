/-
What a rewrite needs of a script language: reading scripts and expressions, and printing.
-/
import TerseStyle.Script.Dialect
import TerseStyle.Script.Tree

namespace TerseStyle.Script

/-- a language of scripts -/
structure Language where
  /-- reads a whole script, or gives the position at which that fails -/
  script : Text → Except Nat Node
  /-- reads an expression in front of a text; also the text behind it -/
  expression : Text → Except Nat (Node × Text)
  /-- prints a whole script -/
  print : Node → Text

end TerseStyle.Script

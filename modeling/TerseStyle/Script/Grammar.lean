/-
The grammar of scripts as a record of readers. Readers that occur inside each other refer to the record; a grammar of
one more level of nesting is built from the one below, so that no reader calls itself.
-/
import TerseStyle.Script.Cursor

namespace TerseStyle.Script

/-- the readers that others refer to -/
structure Grammar where
  /-- an expression, with commas -/
  expression : Reader Node
  /-- an expression without commas outside of parentheses -/
  assignment : Reader Node
  /-- an expression without binary operators outside of parentheses -/
  unary : Reader Node
  /-- an expression without operators, calls and members behind it -/
  operand : Reader Node
  /-- a declared name, or names in an array or object pattern -/
  pattern : Reader Node
  /-- what is assigned to -/
  target : Reader Node
  type : Reader Node
  /-- an element or a fragment -/
  markup : Reader Node
  statement : Reader Node

namespace Grammar

/-- no nesting is left -/
def exhausted : Grammar where
  expression := Reader.fail
  assignment := Reader.fail
  unary := Reader.fail
  operand := Reader.fail
  pattern := Reader.fail
  target := Reader.fail
  type := Reader.fail
  markup := Reader.fail
  statement := Reader.fail

end Grammar

/-! ## Names -/

/-- words that name no variable -/
def reservedWords : List Text :=
  ["break", "case", "catch", "class", "const", "continue", "debugger", "default", "delete", "do", "else", "enum",
    "export", "extends", "false", "finally", "for", "function", "if", "import", "in", "instanceof", "new", "null",
    "return", "super", "switch", "this", "throw", "true", "try", "typeof", "var", "void", "while",
    "with"].map String.toList

/-- the name of a variable -/
def identifier : Reader Text := do
  match (← get).token with
  | .word t => if reservedWords.contains t then Reader.fail else Reader.skip; return t
  | _ => Reader.fail

end TerseStyle.Script

/-
Arguments of a style chain. An argument is the text between the parentheses of a call; a number or a single-quoted
string is a constant, anything else a variable expression. A call is noted in the skeleton of the chain by a
placeholder that holds the index of its argument.
-/
import TerseStyle.Chain.Number

namespace TerseStyle.Chain

/-- how an argument is used: constants become part of a class name, variables are evaluated when the script runs -/
inductive ArgumentKind where
  | constant
  | variable
  deriving DecidableEq, Repr

/-- an argument with its text as written; the value of a constant has no blanks and no quotes around it -/
structure Argument where
  kind : ArgumentKind
  value : Text
  raw : Text
  deriving DecidableEq, Repr

/-- the text between single quotes around all of `raw`, if it is so quoted -/
def unquote? (raw : Text) : Option Text :=
  match raw with
  | '\'' :: rest => if rest.getLast? = some '\'' then some rest.dropLast else none
  | _ => none

namespace Argument

/-- classifies the text of an argument -/
def classify (raw : Text) : Argument :=
  if isNumber raw then ⟨.constant, Text.trim raw, raw⟩
  else
    match unquote? raw with
    | some inner => ⟨.constant, inner, raw⟩
    | none => ⟨.variable, raw, raw⟩

/-- an argument without content -/
def isEmpty (a : Argument) : Bool := Text.isBlankOnly a.raw

end Argument

/-! ## Placeholders -/

/-- the word that every placeholder starts with -/
def placeholderWord : Text := "COUNT".toList

/-- the placeholder of the argument with this index -/
def placeholder (index : Nat) : Text := placeholderWord ++ Text.ofNat index

/-- the index that a placeholder holds -/
def placeholderIndex? (t : Text) : Option Nat :=
  (placeholderWord.isPrefixOf? t).bind Text.toIndex?

end TerseStyle.Chain

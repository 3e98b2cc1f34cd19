/-
Why a rewrite fails. Every cause carries what its message names; `RewriteError.message` is the only place where the
wording stands.
-/
import TerseStyle.Chain.Fault
import TerseStyle.Text.Position

namespace TerseStyle.Rewrite

/-- why a script cannot be rewritten -/
inductive RewriteError where
  /-- the script cannot be read -/
  | unreadable (file : Text) (position : Position)
  /-- the expression made of a chain cannot be read -/
  | unreadableCode (code : Text)
  /-- the expression made of a chain ends too early -/
  | leftover (rest code : Text)
  /-- an element has more than one source of styles, which cannot be merged -/
  | mixedStyle (element : Text)
  /-- a style marker has no value -/
  | missingStyleValue (name : Text)
  /-- an attribute for a chain holds none, or is repeated -/
  | invalidChainAttribute (name : Text)
  /-- the chain does not compile -/
  | chain (error : Chain.CompileError)
  deriving DecidableEq, Repr

namespace RewriteError

/-- what is left of an expression that ends too early -/
def leftoverMessage (rest code : Text) : Text :=
  "unexpected `".toList ++ rest ++ "` after expression in `".toList ++ code ++ ['\x60']

/-- the wording of an error -/
def message : RewriteError → Text
  | unreadable file p => "Failed to parse ".toList ++ file ++ ": ".toList ++ p.text
  | unreadableCode _ => "Failed to parse <generated>".toList
  | leftover _ _ => "Failed to parse <generated>".toList
  | mixedStyle element => "Conflicting style sources on <".toList ++ element ++ ['>']
  | missingStyleValue name => "Style attribute '".toList ++ name ++ "' requires a value".toList
  | invalidChainAttribute name => "Invalid DSL attribute '".toList ++ name ++ ['\'']
  | chain error => error.message

/-- whether an error is met while elements are rewritten, the script being read already -/
def isOnElement : RewriteError → Bool
  | unreadable .. => false
  | _ => true

end RewriteError

end TerseStyle.Rewrite

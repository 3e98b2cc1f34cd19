/-
Numeric arguments: signed `Infinity`, unsigned integers in radix 16, 8 and 2, and signed decimal numbers.
-/
import TerseStyle.Text.Basic

namespace TerseStyle.Chain

/-- drops one leading sign -/
def dropSign : Text → Text
  | '+' :: rest => rest
  | '-' :: rest => rest
  | t => t

/-- an exponent: nothing, or `e`, an optional sign and one or more digits -/
def isExponent : Text → Bool
  | [] => true
  | c :: rest =>
    (c = 'e' || c = 'E') && (let digits := dropSign rest; !digits.isEmpty && digits.all Char.isDigit)

/-- a decimal number: digits with an optional point among or around them, then an exponent -/
def isDecimal (t : Text) : Bool :=
  let unsigned := dropSign t
  let whole := unsigned.takeWhile Char.isDigit
  match unsigned.dropWhile Char.isDigit with
  | '.' :: rest =>
    (!whole.isEmpty || (rest.takeWhile Char.isDigit).length > 0) && isExponent (rest.dropWhile Char.isDigit)
  | rest => !whole.isEmpty && isExponent rest

/-- a digit of radix 16, 8 or 2 -/
def isRadixDigit (radix : Nat) (c : Char) : Bool :=
  if c.isDigit then c.toNat - 48 < radix
  else radix = 16 && (('a' ≤ c && c ≤ 'f') || ('A' ≤ c && c ≤ 'F'))

/-- the radix that a second character announces after a zero -/
def radixOf (c : Char) : Option Nat :=
  if c = 'x' || c = 'X' then some 16
  else if c = 'o' || c = 'O' then some 8
  else if c = 'b' || c = 'B' then some 2
  else none

/-- whether the text, without the blanks around it, is a number -/
def isNumber (raw : Text) : Bool :=
  let t := Text.trim raw
  if dropSign t = "Infinity".toList then true
  else
    match t with
    | '0' :: c :: digits =>
      match radixOf c with
      | some radix => !digits.isEmpty && digits.all (isRadixDigit radix)
      | none => isDecimal t
    | _ => isDecimal t

end TerseStyle.Chain

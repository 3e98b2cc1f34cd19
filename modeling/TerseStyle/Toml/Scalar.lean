/-
Numbers, dates and times in TOML. They are checked and not evaluated.
-/
import TerseStyle.Toml.Scan

namespace TerseStyle.Toml

/-! ## Numbers -/

/-- digits with single underscores between them, of which the first is not checked -/
def isDigitRun (isDigit : Char → Bool) : (afterDigit : Bool) → Text → Bool
  | afterDigit, [] => afterDigit
  | afterDigit, c :: rest =>
    if c = '_' then afterDigit && isDigitRun isDigit false rest
    else isDigit c && isDigitRun isDigit true rest

/-- one or more digits with single underscores between them -/
def isDigits (isDigit : Char → Bool) (t : Text) : Bool := isDigitRun isDigit false t

/-- drops a sign -/
def dropSign : Text → Text
  | '+' :: rest => rest
  | '-' :: rest => rest
  | t => t

/-- decimal digits without a leading zero, apart from zero itself -/
def isWhole (t : Text) : Bool := isDigits Char.isDigit t && (t.length = 1 || t.head? ≠ some '0')

/-- an integer -/
def isInteger (t : Text) : Bool :=
  match t with
  | '0' :: 'x' :: digits => isDigits Scan.isHex digits
  | '0' :: 'o' :: digits => isDigits (fun c => '0' ≤ c && c ≤ '7') digits
  | '0' :: 'b' :: digits => isDigits (fun c => c = '0' || c = '1') digits
  | _ => isWhole (dropSign t)

/-- whether a character starts an exponent -/
def isExponentMark (c : Char) : Bool := c = 'e' || c = 'E'

/-- an exponent, or nothing -/
def isExponent : Text → Bool
  | [] => true
  | c :: rest => isExponentMark c && isDigits Char.isDigit (dropSign rest)

/-- a number with a fraction or an exponent, or one of the special numbers -/
def isFloat (t : Text) : Bool :=
  let unsigned := dropSign t
  let whole := unsigned.takeWhile fun c => c ≠ '.' && !isExponentMark c
  unsigned = "inf".toList || unsigned = "nan".toList ||
    (isWhole whole &&
      match unsigned.drop whole.length with
      | '.' :: rest =>
        let fraction := rest.takeWhile fun c => !isExponentMark c
        isDigits Char.isDigit fraction && isExponent (rest.drop fraction.length)
      | rest => !rest.isEmpty && isExponent rest)

/-! ## Dates and times -/

/-- the number that so many digits in front denote, and what follows them -/
def fixedDigits (count : Nat) (t : Text) : Option (Nat × Text) :=
  let digits := t.take count
  if digits.length = count && digits.all Char.isDigit then
    some (digits.foldl (fun n c => 10 * n + (c.toNat - 48)) 0, t.drop count)
  else none

/-- what follows a character in front -/
def behindChar (c : Char) (t : Text) : Option Text := if t.head? = some c then some (t.drop 1) else none

/-- whether a year has a leap day -/
def isLeapYear (year : Nat) : Bool := year % 4 = 0 && (year % 100 ≠ 0 || year % 400 = 0)

/-- the number of days of a month -/
def daysIn (year month : Nat) : Nat :=
  if month = 2 then if isLeapYear year then 29 else 28
  else if [4, 6, 9, 11].contains month then 30
  else 31

/-- what follows a date in front -/
def behindDate? (t : Text) : Option Text := do
  let (year, t) ← fixedDigits 4 t
  let (month, t) ← fixedDigits 2 (← behindChar '-' t)
  let (day, t) ← fixedDigits 2 (← behindChar '-' t)
  if 1 ≤ month && month ≤ 12 && 1 ≤ day && day ≤ daysIn year month then return t else none

/-- what follows a fraction of a second in front, if there is one -/
def behindFraction? (t : Text) : Option Text :=
  match t with
  | '.' :: rest => if (rest.head?.any Char.isDigit) then some (rest.dropWhile Char.isDigit) else none
  | _ => some t

/-- what follows a time in front -/
def behindTime? (t : Text) : Option Text := do
  let (hour, t) ← fixedDigits 2 t
  let (minute, t) ← fixedDigits 2 (← behindChar ':' t)
  let (second, t) ← fixedDigits 2 (← behindChar ':' t)
  if hour ≤ 23 && minute ≤ 59 && second ≤ 60 then behindFraction? t else none

/-- whether a text is an offset from universal time, or empty -/
def isOffset (t : Text) : Bool :=
  match t with
  | [] => true
  | [c] => c = 'Z' || c = 'z'
  | sign :: rest =>
    (sign = '+' || sign = '-') &&
      (do
        let (hour, t) ← fixedDigits 2 rest
        let (minute, t) ← fixedDigits 2 (← behindChar ':' t)
        if hour ≤ 23 && minute ≤ 59 then some t else none) = some []

/-- whether a text is a date, a time, or both -/
def isDateTime (t : Text) : Bool :=
  match behindDate? t with
  | some [] => true
  | some (c :: rest) => (c = 'T' || c = 't' || c = ' ') && (behindTime? rest).any isOffset
  | none => behindTime? t = some []

/-! ## Scalars -/

/-- characters of numbers, dates and times -/
def isScalarPart (c : Char) : Bool := c.isAlphanum || c = '_' || c = '-' || c = '+' || c = '.' || c = ':'

/-- a truth value, a number, a date or a time -/
def scalar : Scan Value := do
  let t ← Scan.takeWhile isScalarPart
  -- a date and a time may have a space between them
  let behind ← get
  let t ←
    if behindDate? t = some [] && behind.head? = some ' ' && (behind.drop 1).head?.any Char.isDigit then
      Scan.skip 1
      pure (t ++ ' ' :: (← Scan.takeWhile isScalarPart))
    else pure t
  if t = "true".toList then return .truth true
  if t = "false".toList then return .truth false
  if isInteger t || isFloat t || isDateTime t then return .scalar else Scan.fail

end TerseStyle.Toml

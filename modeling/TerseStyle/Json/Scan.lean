/-
Scanning JSON for values of a known shape. A scan goes from left to right and stops at the first problem: the text ends
inside a value, the text is not JSON, or a value has another shape than asked for. A value of another shape that is a
scalar is scanned to its end first, so that a problem inside it comes before.
-/
import TerseStyle.Text.Basic

namespace TerseStyle.Json

/-- why a scan stops -/
inductive Fault where
  /-- the text ends inside a value -/
  | ended
  /-- the text is not JSON -/
  | malformed
  /-- a value has another shape than asked for -/
  | mismatched
  deriving DecidableEq, Repr

/-- scans something in front of a text -/
abbrev Scan := StateT Text (Except Fault)

namespace Scan

variable {α : Type}

/-! ## Characters -/

/-- white space between tokens -/
def isGap (c : Char) : Bool := c = ' ' || c = '\n' || c = '\t' || c = '\r'

/-- skips white space; also the character behind it -/
def peek : Scan (Option Char) := modifyGet fun t => let rest := t.dropWhile isGap; (rest.head?, rest)

/-- the next character, white space or not -/
def here : Scan (Option Char) := do return (← get).head?

/-- takes a character -/
def skip : Scan Unit := modify (·.drop 1)

/-- takes the rest of a word, the first letter of which is read -/
def restOfWord : Text → Scan Unit
  | [] => return
  | expected :: more => do
    match ← here with
    | none => throw .ended
    | some c =>
      unless c = expected do throw .malformed
      skip
      restOfWord more

/-! ## Strings -/

/-- the value of a hexadecimal digit -/
def hexValue? (c : Char) : Option Nat :=
  if c.isDigit then some (c.toNat - 48)
  else if 'a' ≤ c && c ≤ 'f' then some (c.toNat - 87)
  else if 'A' ≤ c && c ≤ 'F' then some (c.toNat - 55)
  else none

/-- the number of bytes that a text is stored in -/
def byteLength (t : Text) : Nat := t.foldl (fun n c => n + c.utf8Size) 0

/-- the code unit of four hexadecimal digits in front; fewer than four bytes are the end of the text -/
def codeUnit (t : Text) : Except Fault Nat :=
  if byteLength t < 4 then .error .ended
  else
    match (t.take 4).mapM hexValue? with
    | some [a, b, c, d] => .ok (((a * 16 + b) * 16 + c) * 16 + d)
    | _ => .error .malformed

/-- the first unit of a pair -/
def isLeading (n : Nat) : Bool := 0xD800 ≤ n && n ≤ 0xDBFF

/-- the second unit of a pair -/
def isTrailing (n : Nat) : Bool := 0xDC00 ≤ n && n ≤ 0xDFFF

/-- the character of a pair of units -/
def pairChar (first second : Nat) : Char := Char.ofNat (0x10000 + (first - 0xD800) * 0x400 + (second - 0xDC00))

/-- the character that a single letter behind a backslash stands for -/
def escaped? (c : Char) : Option Char :=
  match c with
  | '"' => some '"'
  | '\\' => some '\\'
  | '/' => some '/'
  | 'b' => some '\x08'
  | 'f' => some '\x0c'
  | 'n' => some '\n'
  | 'r' => some '\r'
  | 't' => some '\t'
  | _ => none

/-- reads an escaped code unit, or a pair of them, behind a backslash and a `u`; `pairs` tells whether pairs are looked
at. Also how many characters were read. -/
def unitEscape (pairs : Bool) (t : Text) : Except Fault (Char × Nat) := do
  let first ← codeUnit t
  if !pairs then return (Char.ofNat first, 4)
  if isTrailing first then throw .malformed
  if !isLeading first then return (Char.ofNat first, 4)
  match t.drop 4 with
  | [] => throw .ended
  | '\\' :: rest =>
    match rest with
    | [] => throw .ended
    | 'u' :: more =>
      let second ← codeUnit more
      if isTrailing second then return (pairChar first second, 10) else throw .malformed
    | _ => throw .malformed
  | _ => throw .malformed

/-- reads a string behind its opening quote, after skipping `skip` characters; also the text behind it -/
def stringFrom (pairs : Bool) : (skip : Nat) → Text → Except Fault (Text × Text)
  | _, [] => .error .ended
  | skip + 1, _ :: rest => stringFrom pairs skip rest
  | 0, '\\' :: rest =>
    match rest with
    | [] => .error .ended
    | 'u' :: more => do
      let (c, n) ← unitEscape pairs more
      let (t, after) ← stringFrom pairs (n + 1) rest
      return (c :: t, after)
    | letter :: _ =>
      match escaped? letter with
      | none => .error .malformed
      | some c => do
        let (t, after) ← stringFrom pairs 1 rest
        return (c :: t, after)
  | 0, c :: rest =>
    if c = '"' then .ok ([], rest)
    else if c.toNat < 32 then .error .malformed
    else do
      let (t, after) ← stringFrom pairs 0 rest
      return (c :: t, after)

/-- reads a string whose opening quote is read -/
def stringBody : Scan Text := fun t => stringFrom true 0 t

/-- skips a string whose opening quote is read -/
def skipString : Scan Unit := fun t => (stringFrom false 0 t).map fun (_, rest) => ((), rest)

/-! ## Numbers -/

/-- takes the digits in front -/
def digits : Scan Text := modifyGet fun t => (t.takeWhile Char.isDigit, t.dropWhile Char.isDigit)

/-- the number that digits denote -/
def decimal (t : Text) : Nat := t.foldl (fun n c => 10 * n + (c.toNat - 48)) 0

/-- numbers from here on are out of range; the bound is halfway behind the greatest double -/
def rangeLimit : Nat := Nat.pow 2 1024 - Nat.pow 2 970

/-- whether `significand` times ten to a power is out of range -/
def outOfRange (significand : Nat) (exponent : Int) : Bool :=
  if significand = 0 then false
  else if exponent ≥ 0 then exponent > 308 || significand * Nat.pow 10 exponent.toNat ≥ rangeLimit
  else
    let length := (Nat.toDigits 10 significand).length
    (length : Int) + exponent > 308 && significand ≥ rangeLimit * Nat.pow 10 (-exponent).toNat

/-- what a number lacks where the text ends or goes on otherwise -/
def lacking (endsHere : Fault) : Scan α := do
  match ← here with
  | none => throw endsHere
  | some _ => throw .malformed

/-- the whole part of a number: no digit follows a leading zero -/
def wholePart (endsHere : Fault) : Scan Text := do
  let whole ← digits
  if whole.isEmpty then lacking endsHere
  if whole.head? = some '0' && whole.length > 1 then throw .malformed
  return whole

/-- the digits behind a point -/
def fractionPart (endsHere : Fault) : Scan Text := do
  if (← here) = some '.' then
    skip
    let fraction ← digits
    if fraction.isEmpty then lacking endsHere
    return fraction
  else return []

/-- the exponent behind a letter -/
def exponentPart (endsHere : Fault) : Scan Int := do
  if (← here) = some 'e' || (← here) = some 'E' then
    skip
    let negative := (← here) = some '-'
    if negative || (← here) = some '+' then skip
    let power ← digits
    if power.isEmpty then lacking endsHere
    return if negative then -(decimal power : Int) else decimal power
  else return 0

/-- scans a number behind its sign; `endsHere` is the problem where the text ends in it. Also whether it is in range. -/
def number (endsHere : Fault) : Scan Bool := do
  let whole ← wholePart endsHere
  let fraction ← fractionPart endsHere
  let exponent ← exponentPart endsHere
  return !outOfRange (decimal (whole ++ fraction)) (exponent - fraction.length)

/-! ## Values of any shape -/

/-- scans a scalar that was not asked for, which is then of another shape -/
def mismatch : Scan α := do
  match ← peek with
  | none => throw .ended
  | some c =>
    if c = '[' || c = '{' then throw .mismatched
    else if c = 'n' then skip; restOfWord "ull".toList
    else if c = 't' then skip; restOfWord "rue".toList
    else if c = 'f' then skip; restOfWord "alse".toList
    else if c = '"' then
      skip
      let _ ← stringBody
    else if c = '-' || c.isDigit then
      if c = '-' then skip
      unless ← number .ended do throw .malformed
    else throw .malformed
    throw .mismatched

/-- skips a scalar -/
def skipScalar (c : Char) : Scan Unit := do
  if c = 'n' then skip; restOfWord "ull".toList
  else if c = 't' then skip; restOfWord "rue".toList
  else if c = 'f' then skip; restOfWord "alse".toList
  else if c = '"' then skip; skipString
  else if c = '-' || c.isDigit then
    if c = '-' then skip
    let _ ← number .malformed
  else throw .malformed

/-- skips the key of an entry with its colon -/
def skipKey : Scan Unit := do
  match ← peek with
  | none => throw .ended
  | some c =>
    unless c = '"' do throw .malformed
    skip
    skipString
    match ← peek with
    | none => throw .ended
    | some c =>
      unless c = ':' do throw .malformed
      skip

/-- what a scan of brackets has in front -/
inductive Expected where
  | value
  /-- the first element of an array or object, or its end -/
  | first
  /-- a comma or the end of an array or object -/
  | next

/-- skips values inside brackets, the innermost of which comes first, at most `bound` steps -/
def skipNested : (bound : Nat) → (brackets : List Char) → Expected → Scan Unit
  | 0, _, _ => throw .ended
  | bound + 1, brackets, .value => do
    match ← peek with
    | none => throw .ended
    | some c =>
      if c = '[' || c = '{' then
        skip
        skipNested bound (c :: brackets) .first
      else
        skipScalar c
        if brackets.isEmpty then return
        skipNested bound brackets .next
  | bound + 1, brackets, expected => do
    match ← peek with
    | none => throw .ended
    | some c =>
      let isObject := brackets.head? = some '{'
      if c = (if isObject then '}' else ']') then
        skip
        if brackets.length ≤ 1 then return
        skipNested bound (brackets.drop 1) .next
      else
        match expected with
        | .next =>
          unless c = ',' do throw .malformed
          skip
        | _ => pure ()
        if isObject then skipKey
        skipNested bound brackets .value

/-- skips a value of any shape -/
def skipValue : Scan Unit := do skipNested (2 * (← get).length + 2) [] .value

/-! ## Values of a known shape -/

/-- a truth value -/
def truth : Scan Bool := do
  match ← peek with
  | some 't' => skip; restOfWord "rue".toList; return true
  | some 'f' => skip; restOfWord "alse".toList; return false
  | _ => mismatch

/-- a string -/
def string : Scan Text := do
  match ← peek with
  | some '"' => skip; stringBody
  | _ => mismatch

/-- a value, or nothing for `null` -/
def optional (p : Scan α) : Scan (Option α) := do
  match ← peek with
  | some 'n' => skip; restOfWord "ull".toList; return none
  | _ => return some (← p)

/-- whether another element of an array comes; `first` tells whether it would be the first -/
def anotherElement (first : Bool) : Scan Bool := do
  match ← peek with
  | none => throw .ended
  | some ']' => return false
  | some ',' =>
    if first then return true
    skip
    match ← peek with
    | none => throw .ended
    | some ']' => throw .malformed
    | some _ => return true
  | some _ => if first then return true else throw .malformed

/-- the end of an array, after all of its elements that are asked for -/
def arrayEnd : Scan Unit := do
  match ← peek with
  | none => throw .ended
  | some ']' => skip
  | some _ => throw .malformed

/-- the elements of an array, at most `bound` -/
def elementsUpTo (p : Scan α) : (bound : Nat) → (first : Bool) → Scan (List α)
  | 0, _ => throw .ended
  | bound + 1, first => do
    if ← anotherElement first then return (← p) :: (← elementsUpTo p bound false) else return []

/-- an array -/
def array (p : Scan α) : Scan (List α) := do
  match ← peek with
  | some '[' =>
    skip
    let elements ← elementsUpTo p ((← get).length + 1) true
    arrayEnd
    return elements
  | _ => mismatch

/-- the key of the next entry of an object, if there is one -/
def anotherKey (first : Bool) : Scan (Option Text) := do
  match ← peek with
  | none => throw .ended
  | some '}' => return none
  | some c =>
    if c = ',' && !first then
      skip
      match ← peek with
      | none => throw .ended
      | some '"' => skip; return some (← stringBody)
      | some _ => throw .malformed
    else if c = '"' && first then
      skip
      return some (← stringBody)
    else throw .malformed

/-- the colon behind a key -/
def colon : Scan Unit := do
  match ← peek with
  | none => throw .ended
  | some ':' => skip
  | some _ => throw .malformed

/-- extends a value by the entries of an object, at most `bound`; `entry` goes on behind the key -/
def entriesUpTo (entry : Text → α → Scan α) : (bound : Nat) → (first : Bool) → α → Scan α
  | 0, _, _ => throw .ended
  | bound + 1, first, a => do
    match ← anotherKey first with
    | none => return a
    | some key => entriesUpTo entry bound false (← entry key a)

/-- extends a value by the entries of an object whose opening brace is read -/
def entries (entry : Text → α → Scan α) (a : α) : Scan α := do
  let a ← entriesUpTo entry ((← get).length + 1) true a
  skip
  return a

/-- a dictionary of strings -/
def dictionary : Scan (List (Text × Text)) := do
  match ← peek with
  | some '{' =>
    skip
    entries (fun key found => do
      colon
      return found ++ [(key, ← string)]) []
  | _ => mismatch

/-- a whole text -/
def whole (p : Scan α) : Scan α := do
  let a ← p
  if (← peek).isSome then throw .malformed else return a

end Scan

end TerseStyle.Json

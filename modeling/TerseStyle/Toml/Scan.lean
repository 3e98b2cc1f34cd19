/-
Scanning the parts of a TOML document: white space and comments, keys, and strings.
-/
import TerseStyle.Toml.Table

namespace TerseStyle.Toml

/-- scans something in front of a text, if it is there -/
abbrev Scan := StateT Text Option

namespace Scan

variable {α : Type}

/-- gives up -/
def fail : Scan α := fun _ => none

/-- the next character -/
def here : Scan (Option Char) := do return (← get).head?

/-- takes `n` characters -/
def skip (n : Nat) : Scan Unit := modify (·.drop n)

/-- takes a piece of text if it is in front -/
def eat (piece : String) : Scan Bool := do
  match piece.toList.isPrefixOf? (← get) with
  | some rest => set rest; return true
  | none => return false

/-- takes a piece of text, or gives up -/
def expect (piece : String) : Scan Unit := do
  unless ← eat piece do fail

/-- takes the characters in front that have a property -/
def takeWhile (p : Char → Bool) : Scan Text := modifyGet fun t => (t.takeWhile p, t.dropWhile p)

/-! ## Gaps -/

/-- spaces and tabs -/
def isSpace (c : Char) : Bool := c = ' ' || c = '\t'

/-- characters that stand for themselves in comments and literal strings -/
def isPlain (c : Char) : Bool := c = '\t' || (c.toNat ≥ 32 && c.toNat ≠ 127)

/-- skips spaces -/
def spaces : Scan Unit := do
  let _ ← takeWhile isSpace

/-- skips a comment, if there is one -/
def comment : Scan Unit := do
  if ← eat "#" then
    let _ ← takeWhile isPlain

/-- takes a line break, if there is one -/
def lineBreak : Scan Bool := do
  if ← eat "\n" then return true
  eat "\r\n"

/-- the end of a line behind a statement -/
def lineEnd : Scan Unit := do
  spaces
  comment
  unless (← get).isEmpty do
    unless ← lineBreak do fail

/-- skips spaces, comments and line breaks, at most `bound` lines -/
def gapUpTo : (bound : Nat) → Scan Unit
  | 0 => return
  | bound + 1 => do
    spaces
    comment
    if ← lineBreak then gapUpTo bound

/-- skips spaces, comments and line breaks -/
def gap : Scan Unit := do gapUpTo ((← get).length + 1)

/-! ## Strings -/

/-- the value of hexadecimal digits -/
def hexValue (digits : Text) : Nat :=
  digits.foldl (fun n c =>
    16 * n + if c.isDigit then c.toNat - 48 else if c ≤ 'F' then c.toNat - 55 else c.toNat - 87) 0

/-- hexadecimal digits -/
def isHex (c : Char) : Bool := c.isDigit || ('a' ≤ c && c ≤ 'f') || ('A' ≤ c && c ≤ 'F')

/-- the character of so many hexadecimal digits -/
def hexChar (count : Nat) : Scan Char := do
  let digits := (← get).take count
  if digits.length = count && digits.all isHex && (hexValue digits).isValidChar then
    skip count
    return Char.ofNat (hexValue digits)
  else fail

/-- the character that an escape behind a backslash stands for -/
def escape : Scan Char := do
  match ← here with
  | none => fail
  | some c =>
    skip 1
    match c with
    | 'b' => return '\x08'
    | 't' => return '\t'
    | 'n' => return '\n'
    | 'f' => return '\x0c'
    | 'r' => return '\r'
    | '"' => return '"'
    | '\\' => return '\\'
    | 'u' => hexChar 4
    | 'U' => hexChar 8
    | _ => fail

/-- the rest of a string on one line, behind its opening quote -/
def basicFrom : (bound : Nat) → Scan Text
  | 0 => fail
  | bound + 1 => do
    let plain ← takeWhile fun c => isPlain c && c ≠ '"' && c ≠ '\\'
    if ← eat "\"" then return plain
    expect "\\"
    return plain ++ (← escape) :: (← basicFrom bound)

/-- the rest of a literal string on one line, behind its opening quote -/
def literalFrom : Scan Text := do
  let plain ← takeWhile fun c => isPlain c && c ≠ '\''
  expect "'"
  return plain

/-- the quotes at the end of a string over several lines: three close it, and up to two before belong to it -/
def closingQuotes (quote : Char) : Scan (Text × Bool) := do
  let quotes ← takeWhile (· = quote)
  if quotes.length < 3 then return (quotes, false)
  else if quotes.length ≤ 5 then return (quotes.drop 3, true)
  else fail

/-- the rest of a string over several lines -/
def multilineFrom (quote : Char) (escapes : Bool) : (bound : Nat) → Scan Text
  | 0 => fail
  | bound + 1 => do
    let plain ← takeWhile fun c => isPlain c && c ≠ quote && !(escapes && c = '\\')
    match ← here with
    | none => fail
    | some c =>
      if c = quote then
        let (quotes, closed) ← closingQuotes quote
        if closed then return plain ++ quotes
        return plain ++ quotes ++ (← multilineFrom quote escapes bound)
      else if ← lineBreak then return plain ++ '\n' :: (← multilineFrom quote escapes bound)
      else if c = '\\' then
        skip 1
        let behind ← get
        spaces
        if ← lineBreak then
          let rest := (← get).dropWhile fun c => isSpace c || c = '\n' || c = '\r'
          set rest
          return plain ++ (← multilineFrom quote escapes bound)
        else
          set behind
          return plain ++ (← escape) :: (← multilineFrom quote escapes bound)
      else fail

/-- a string over several lines, behind its opening quotes; a line break right there does not count -/
def multiline (quote : Char) (escapes : Bool) : Scan Text := do
  let _ ← lineBreak
  multilineFrom quote escapes ((← get).length + 1)

/-- a string on one line, if there is one -/
def lineString : Scan (Option Text) := do
  if ← eat "\"" then return some (← basicFrom ((← get).length + 1))
  if ← eat "'" then return some (← literalFrom)
  return none

/-- a string, if there is one -/
def string : Scan (Option Text) := do
  if ← eat "\"\"\"" then return some (← multiline '"' true)
  if ← eat "'''" then return some (← multiline '\'' false)
  lineString

/-! ## Keys -/

/-- characters of keys without quotes -/
def isBareKey (c : Char) : Bool := c.isAlphanum || c = '_' || c = '-'

/-- a part of a dotted key -/
def keyPart : Scan Text := do
  match ← lineString with
  | some t => return t
  | none =>
    let t ← takeWhile isBareKey
    if t.isEmpty then fail else return t

/-- the parts of a dotted key, at most `bound`, with spaces around them -/
def keyUpTo : (bound : Nat) → Scan (List Text)
  | 0 => fail
  | bound + 1 => do
    spaces
    let part ← keyPart
    spaces
    if ← eat "." then return part :: (← keyUpTo bound) else return [part]

/-- a dotted key: the parts before the last, and the last -/
def key : Scan (List Text × Text) := do
  let parts ← keyUpTo ((← get).length + 1)
  return (parts.dropLast, parts.getLastD [])

end Scan

end TerseStyle.Toml

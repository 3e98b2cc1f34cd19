/-
Tokens of a script: words, punctuators, numbers and strings. A token is as long as possible. Regular expressions,
template pieces and the text of markup are not tokens; the reader asks for them where they may stand.
-/
import TerseStyle.Script.Trivia

namespace TerseStyle.Script

/-! ## Characters -/

/-- characters that an identifier may start with -/
def isIdentifierStart (c : Char) : Bool :=
  if c.toNat < 128 then c.isAlpha || c = '_' || c = '$' else CharTable.holds CharTable.letters c

/-- characters that an identifier may go on with -/
def isIdentifierPart (c : Char) : Bool :=
  if c.toNat < 128 then c.isAlphanum || c = '_' || c = '$'
  else
    CharTable.holds CharTable.letters c || CharTable.holds CharTable.alphabeticMarks c ||
      CharTable.holds CharTable.plainMarks c || c = '\u200c' || c = '\u200d'

/-- hexadecimal digits -/
def isHexDigit (c : Char) : Bool := c.isDigit || ('a' ≤ c && c ≤ 'f') || ('A' ≤ c && c ≤ 'F')

/-- the value of a hexadecimal digit -/
def hexValue (c : Char) : Nat :=
  if c.isDigit then c.toNat - 48 else if c ≤ 'F' then c.toNat - 55 else c.toNat - 87

/-- the number that hexadecimal digits denote -/
def hexNumber (digits : Text) : Nat := digits.foldl (fun n c => 16 * n + hexValue c) 0

/-! ## Escapes -/

/-- whether the text after a backslash starts a well-formed escape -/
def isEscape : Text → Bool
  | 'x' :: rest => (rest.take 2).length = 2 && (rest.take 2).all isHexDigit
  | 'u' :: '{' :: rest =>
    let digits := rest.takeWhile isHexDigit
    !digits.isEmpty && hexNumber digits ≤ 0x10FFFF && (rest.drop digits.length).head? = some '}'
  | 'u' :: rest => (rest.take 4).length = 4 && (rest.take 4).all isHexDigit
  | _ => true

/-- how far a scan got: the characters read, or the position of the fault -/
inductive Extent where
  | upTo (length : Nat)
  | fault (position : Nat)
  deriving DecidableEq, Repr

/-- the end of a string, `n` characters of which are read, the opening quote included. A string that is not closed ends
where the line does. -/
def stringExtent (quote : Char) (n : Nat) : Text → Extent
  | [] => .upTo n
  | ['\\'] => .fault n
  | '\\' :: '\r' :: '\n' :: rest => stringExtent quote (n + 3) rest
  | '\\' :: c :: rest => if isEscape (c :: rest) then stringExtent quote (n + 2) rest else .fault n
  | c :: rest =>
    if c = quote then .upTo (n + 1)
    else if c = '\n' ∨ c = '\r' then .upTo n
    else stringExtent quote (n + 1) rest

/-! ## Numbers -/

/-- the number of characters of `t` in front that satisfy `p` or separate digits -/
def digitRun (p : Char → Bool) (t : Text) : Nat := (t.takeWhile fun c => p c || c = '_').length

/-- the length of an exponent in front, none if the digits are missing -/
def exponentLength : Text → Option Nat
  | c :: sign :: rest =>
    if c = 'e' || c = 'E' then
      if sign = '+' || sign = '-' then
        let n := digitRun Char.isDigit rest
        if n = 0 then none else some (n + 2)
      else
        let n := digitRun Char.isDigit (sign :: rest)
        if n = 0 then none else some (n + 1)
    else some 0
  | [c] => if c = 'e' || c = 'E' then none else some 0
  | [] => some 0

/-- the length of the fraction in front, its point included -/
def fractionLength : Text → Nat
  | '.' :: rest => 1 + digitRun Char.isDigit rest
  | _ => 0

/-- the length of the suffix of a big integer -/
def bigSuffix : Text → Nat
  | 'n' :: _ => 1
  | _ => 0

/-- the end of a number -/
def numberExtent (t : Text) : Extent :=
  let radix (p : Char → Bool) (digits : Text) :=
    let n := digitRun p digits
    if n = 0 then Extent.fault 0 else .upTo (n + 2 + bigSuffix (digits.drop n))
  match t with
  | '0' :: 'x' :: digits => radix isHexDigit digits
  | '0' :: 'X' :: digits => radix isHexDigit digits
  | '0' :: 'o' :: digits => radix (fun c => '0' ≤ c && c ≤ '7') digits
  | '0' :: 'O' :: digits => radix (fun c => '0' ≤ c && c ≤ '7') digits
  | '0' :: 'b' :: digits => radix (fun c => c = '0' || c = '1') digits
  | '0' :: 'B' :: digits => radix (fun c => c = '0' || c = '1') digits
  | _ =>
    let whole := digitRun Char.isDigit t
    let fraction := fractionLength (t.drop whole)
    match exponentLength (t.drop (whole + fraction)) with
    | none => .fault 0
    | some e =>
      let n := whole + fraction + e
      .upTo (n + if fraction + e = 0 then bigSuffix (t.drop n) else 0)

/-! ## Tokens -/

/-- a token, with its text as written -/
inductive Token where
  | word (t : Text)
  | punctuator (t : Text)
  | number (written : Text)
  | string (written : Text)
  /-- the end of the script -/
  | ended
  /-- no token; the fault is so many characters further on -/
  | invalid (position : Nat)
  deriving DecidableEq, Repr

/-- the punctuators, the longer ones first -/
def punctuators : List Text :=
  [">>>=", "...", "===", "!==", "**=", "<<=", ">>=", ">>>", "&&=", "||=", "??=", "=>", "==", "!=", "<=", ">=", "&&",
    "||", "??", "?.", "++", "--", "+=", "-=", "*=", "/=", "%=", "&=", "|=", "^=", "<<", ">>", "**", "\x7b", "\x7d", "(",
    ")", "[", "]", ";", ",", "<", ">", "+", "-", "*", "/", "%", "&", "|", "^", "!", "~", "?", ":", "=", ".", "`", "@",
    "#"].map String.toList

/-- the punctuator that a text starts with -/
def punctuator? (t : Text) : Option Text :=
  match t with
  | '?' :: '.' :: c :: _ => if c.isDigit then some ['?'] else punctuators.find? (·.isPrefixOf t)
  | _ => punctuators.find? (·.isPrefixOf t)

namespace Token

/-- a token of known extent -/
def ofExtent (make : Text → Token) (t : Text) : Extent → Token
  | .upTo n => make (t.take n)
  | .fault n => invalid n

/-- the token that a text without trivia in front starts with -/
def read : Text → Token
  | [] => ended
  | c :: rest =>
    if isIdentifierStart c then word (c :: rest.takeWhile isIdentifierPart)
    else if c.isDigit || (c = '.' && rest.head?.any Char.isDigit) then
      ofExtent number (c :: rest) (numberExtent (c :: rest))
    else if c = '"' || c = '\'' then ofExtent string (c :: rest) (stringExtent c 1 rest)
    else
      match punctuator? (c :: rest) with
      | some p => punctuator p
      | none => invalid 0

/-- the number of characters of a token -/
def length : Token → Nat
  | word t => t.length
  | punctuator t => t.length
  | number t => t.length
  | string t => t.length
  | ended => 0
  | invalid _ => 0

/-- whether a token is a string -/
def isString : Token → Bool
  | string _ => true
  | _ => false

end Token

/-! ## Texts that are not tokens -/

/-- how a piece of a template ends -/
inductive PieceEnd where
  /-- with the closing backtick -/
  | closed
  /-- with the start of an interpolation -/
  | interpolated
  deriving DecidableEq, Repr

/-- a piece of a template, with the characters read including its end -/
structure TemplatePiece where
  written : Text
  length : Nat
  ending : PieceEnd

/-- the piece of a template in front, of which `read` is known in reverse; the position of the fault if there is none -/
def templatePiece (read : Text) : Text → Except (Option Nat) TemplatePiece
  | [] => .error none
  | '\\' :: c :: rest =>
    if isEscape (c :: rest) then templatePiece (c :: '\\' :: read) rest else .error (some read.length)
  | '$' :: '{' :: _ => .ok ⟨read.reverse, read.length + 2, .interpolated⟩
  | c :: rest =>
    if c = '\x60' then .ok ⟨read.reverse, read.length + 1, .closed⟩ else templatePiece (c :: read) rest

/-- the length of a regular expression's body after its first slash, with the closing slash -/
def regexLength (inClass : Bool) (n : Nat) : Text → Option Nat
  | [] => none
  | '\\' :: c :: rest => if isLineBreak c then none else regexLength inClass (n + 2) rest
  | c :: rest =>
    if isLineBreak c then none
    else if c = '/' && !inClass then some (n + 1)
    else regexLength (if c = '[' then true else if c = ']' then false else inClass) (n + 1) rest

end TerseStyle.Script

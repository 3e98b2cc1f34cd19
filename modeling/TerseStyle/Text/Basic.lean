/-
Text as a list of characters, with the few operations that the rest of the library needs: blank characters, trimming,
words, removal and replacement of a piece of text, and decimal indices.
-/
import TerseStyle.Text.CharTable

namespace TerseStyle

/-- a text is the list of its characters -/
abbrev Text := List Char

/-- Unicode white space -/
def isBlank (c : Char) : Bool :=
  let n := c.toNat
  (9 ≤ n && n ≤ 13) || n = 0x20 || n = 0x85 || n = 0xA0 || n = 0x1680 || (0x2000 ≤ n && n ≤ 0x200A) ||
    n = 0x2028 || n = 0x2029 || n = 0x202F || n = 0x205F || n = 0x3000

/-- letters, alphabetic marks and numbers of any script -/
def isAlphanumeric (c : Char) : Bool :=
  if c.toNat < 128 then c.isAlphanum
  else if CharTable.holds CharTable.letters c then !CharTable.holds CharTable.startingMarks c
  else CharTable.holds CharTable.alphabeticMarks c || CharTable.holds CharTable.otherNumbers c

namespace Text

/-! ## Blanks and words -/

/-- drops the blanks in front -/
def trimLeft (t : Text) : Text := t.dropWhile isBlank

/-- drops the blanks at both ends -/
def trim (t : Text) : Text := (trimLeft (trimLeft t).reverse).reverse

/-- whether nothing but blanks occurs -/
def isBlankOnly (t : Text) : Bool := t.all isBlank

/-- the maximal runs of characters that are not blank -/
def words : Text → List Text
  | [] => []
  | c :: rest =>
    if isBlank c then words rest
    else
      match rest, words rest with
      | [], _ => [[c]]
      | d :: _, ws =>
        if isBlank d then [c] :: ws
        else
          match ws with
          | [] => [[c]]
          | w :: more => (c :: w) :: more

/-! ## Pieces of a text -/

/-- whether `piece` occurs in the text as consecutive characters; the empty piece always does -/
def occursIn (piece : Text) : Text → Bool
  | [] => piece.isEmpty
  | c :: rest => piece.isPrefixOf (c :: rest) || occursIn piece rest

/-- removes occurrences of `piece` from the left, after skipping `skip` characters of one that was just found -/
def removeFrom (piece : Text) : (skip : Nat) → Text → Text
  | _, [] => []
  | skip + 1, _ :: rest => removeFrom piece skip rest
  | 0, c :: rest =>
    if piece.isPrefixOf (c :: rest) then removeFrom piece (piece.length - 1) rest
    else c :: removeFrom piece 0 rest

/-- removes every occurrence of `piece`, found from the left and without overlap -/
def removeAll (piece t : Text) : Text :=
  if piece.isEmpty then t else removeFrom piece 0 t

/-- replaces the first occurrence of a non-empty piece -/
def replaceFirst (piece replacement : Text) : Text → Text
  | [] => []
  | c :: rest =>
    match piece.isPrefixOf? (c :: rest) with
    | some after => replacement ++ after
    | none => c :: replaceFirst piece replacement rest

/-! ## Indices -/

/-- the decimal digits of `n` -/
def ofNat (n : Nat) : Text := Nat.toDigits 10 n

/-- the number that decimal digits denote, after the digits already read -/
def digitsValue : (read : Nat) → Text → Option Nat
  | n, [] => some n
  | n, c :: rest => if c.isDigit then digitsValue (10 * n + (c.toNat - 48)) rest else none

/-- indices are smaller than this -/
def indexLimit : Nat := Nat.pow 2 64

/-- an index is one or more decimal digits after an optional plus sign, and below the limit -/
def toIndex? (t : Text) : Option Nat :=
  let digits := match t with
    | '+' :: rest => rest
    | _ => t
  if digits.isEmpty then none
  else
    match digitsValue 0 digits with
    | some n => if n < indexLimit then some n else none
    | none => none

end Text

end TerseStyle

/-
Positions in a text as a line and a display column. Lines count from one; the column is the width of what stands before
on the line.
-/
import TerseStyle.Text.ColumnWidth
import TerseStyle.Text.Basic

namespace TerseStyle

/-- a line, counted from one, and the width of the text before on that line -/
structure Position where
  line : Nat
  column : Nat
  deriving DecidableEq, Repr

namespace Position

/-- the first position of a text -/
def start : Position := ⟨1, 0⟩

/-- moves on over a character -/
def past (p : Position) (c : Char) : Position :=
  if c = '\n' then ⟨p.line + 1, 0⟩ else ⟨p.line, p.column + columnWidth c⟩

/-- moves on over `n` characters; a carriage return ends a line unless a line feed follows -/
def pastText : Position → (n : Nat) → Text → Position
  | p, 0, _ => p
  | p, _ + 1, [] => p
  | p, n + 1, c :: rest =>
    pastText (if c = '\r' && rest.head? ≠ some '\n' then ⟨p.line + 1, 0⟩ else p.past c) n rest

/-- the position of a character, given by how many stand before it -/
def ofOffset (t : Text) (offset : Nat) : Position := start.pastText offset t

/-- the line and the column with a colon between them -/
def text (p : Position) : Text := Text.ofNat p.line ++ ':' :: Text.ofNat p.column

end Position

end TerseStyle

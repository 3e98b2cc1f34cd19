/-
What stands between the tokens of a script: white space, line breaks and comments. A block comment that is never closed
ends with the script.
-/
import TerseStyle.Script.Tree

namespace TerseStyle.Script

/-- drops a byte order mark in front -/
def dropMark : Text → Text
  | '\ufeff' :: rest => rest
  | t => t

/-- characters that end a line -/
def isLineBreak (c : Char) : Bool := c = '\n' || c = '\r' || c = '\u2028' || c = '\u2029'

/-- white space of a script other than line breaks -/
def isSpace (c : Char) : Bool := c = '\ufeff' || (isBlank c && !isLineBreak c && c ≠ '\u0085')

/-- where a scan of trivia stands; a comment's text so far is in reverse -/
inductive TriviaMode where
  | between
  | line (body : Text) (ownLine : Bool)
  | block (body : Text) (ownLine : Bool)

/-- the trivia in front of a token, and the text from the token on -/
structure Trivia where
  comments : List Comment
  /-- whether the token is on a later line than the one before it -/
  lineBreak : Bool
  skipped : Nat
  rest : Text

namespace Trivia

/-- adds a finished comment -/
def addComment (t : Trivia) (isBlock : Bool) (body : Text) (ownLine : Bool) : Trivia :=
  { t with comments := t.comments ++ [⟨isBlock, body.reverse, ownLine⟩] }

/-- scans on -/
def scan : TriviaMode → Trivia → Text → Trivia
  | .between, t, [] => { t with rest := [] }
  | .line body own, t, [] => { t.addComment false body own with rest := [] }
  | .block body own, t, [] => { t.addComment true body own with rest := [] }
  | .between, t, '/' :: '/' :: rest =>
    scan (.line [] t.lineBreak) { t with skipped := t.skipped + 2 } rest
  | .between, t, '/' :: '*' :: rest =>
    scan (.block [] t.lineBreak) { t with skipped := t.skipped + 2 } rest
  | .between, t, c :: rest =>
    if isLineBreak c then scan .between { t with lineBreak := true, skipped := t.skipped + 1 } rest
    else if isSpace c then scan .between { t with skipped := t.skipped + 1 } rest
    else { t with rest := c :: rest }
  | .line body own, t, c :: rest =>
    if isLineBreak c then
      scan .between { t.addComment false body own with lineBreak := true, skipped := t.skipped + 1 } rest
    else scan (.line (c :: body) own) { t with skipped := t.skipped + 1 } rest
  | .block body own, t, '*' :: '/' :: rest =>
    scan .between { t.addComment true body own with skipped := t.skipped + 2 } rest
  | .block body own, t, c :: rest =>
    scan (.block (c :: body) own)
      { t with lineBreak := t.lineBreak || isLineBreak c, skipped := t.skipped + 1 } rest

/-- the trivia that a text starts with -/
def of (t : Text) : Trivia := scan .between ⟨[], false, 0, []⟩ t

end Trivia

end TerseStyle.Script

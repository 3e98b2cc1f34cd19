/-
Reading a script token by token. A cursor holds the next token with what stands before it, and the bare text behind the
last token, which template pieces and markup text are read from. A reader moves the cursor on or fails at a position.
-/
import TerseStyle.Script.Dialect
import TerseStyle.Script.Token

namespace TerseStyle.Script

/-! ## Cursors -/

/-- a place in a script -/
structure Cursor where
  /-- the next token -/
  token : Token
  /-- where the next token starts -/
  offset : Nat
  /-- the text from the next token on -/
  rest : Text
  /-- whether the next token is on a later line than the last one -/
  lineBreak : Bool
  /-- the comments before the next token -/
  comments : List Comment
  /-- where the last token ended -/
  lastEnd : Nat
  /-- the text behind the last token -/
  after : Text

namespace Cursor

/-- the cursor behind a token that ended at `offset`, with the text from there on -/
def read (offset : Nat) (t : Text) : Cursor :=
  let trivia := Trivia.of t
  { token := Token.read trivia.rest
    offset := offset + trivia.skipped
    rest := trivia.rest
    lineBreak := trivia.lineBreak
    comments := trivia.comments
    lastEnd := offset
    after := t }

/-- takes the next `n` characters for the token -/
def advance (c : Cursor) (n : Nat) : Cursor := read (c.offset + n) (c.rest.drop n)

/-- moves on in the bare text behind the last token -/
def skipBare (c : Cursor) (n : Nat) : Cursor := read (c.lastEnd + n) (c.after.drop n)

/-- the position at which reading fails if the next token does not fit -/
def faultPosition (c : Cursor) : Nat :=
  match c.token with
  | .invalid n => c.offset + n
  | _ => c.offset

/-- the next character -/
def next? (c : Cursor) : Option Char := c.rest.head?

end Cursor

/-! ## Readers -/

/-- what a reader depends on besides the text -/
structure Context where
  dialect : Dialect
  /-- whether a colon belongs to the conditional around -/
  inConditional : Bool := false
  /-- whether the tree that is read keeps comments -/
  keepsComments : Bool := true

/-- reads something at the cursor, or fails at a position -/
abbrev Reader := ReaderT Context (StateT Cursor (Except Nat))

namespace Reader

variable {α : Type}

/-- fails at a position -/
def failAt (position : Nat) : Reader α := throw position

/-- fails at the next token -/
def fail : Reader α := do failAt (← get).faultPosition

/-- takes the next `n` characters for the token -/
def advance (n : Nat) : Reader Unit := modify (·.advance n)

/-- takes the next token -/
def skip : Reader Unit := modify fun c => c.advance c.token.length

/-- whether the next token is this punctuator -/
def atMark (mark : String) : Reader Bool := do return (← get).token = .punctuator mark.toList

/-- whether the next token is this word -/
def atWord (word : String) : Reader Bool := do return (← get).token = .word word.toList

/-- whether the next character is this one, whatever the token -/
def atChar (c : Char) : Reader Bool := do return (← get).next? = some c

/-- takes a punctuator if it is next -/
def eatMark (mark : String) : Reader Bool := do
  if ← atMark mark then skip; return true else return false

/-- takes a word if it is next -/
def eatWord (word : String) : Reader Bool := do
  if ← atWord word then skip; return true else return false

/-- takes a character if it is next, whatever the token -/
def eatChar (c : Char) : Reader Bool := do
  if ← atChar c then advance 1; return true else return false

/-- takes a punctuator, or fails -/
def expectMark (mark : String) : Reader Unit := do
  unless ← eatMark mark do fail

/-- takes a word, or fails -/
def expectWord (word : String) : Reader Unit := do
  unless ← eatWord word do fail

/-- takes a character, or fails -/
def expectChar (c : Char) : Reader Unit := do
  unless ← eatChar c do fail

/-- takes any word, or fails -/
def anyWord : Reader Text := do
  match (← get).token with
  | .word t => skip; return t
  | _ => fail

/-- the comments before the next token as far as they are kept; the token then has none -/
def takeComments : Reader (List Comment) := do
  let keep := (← read).keepsComments
  modifyGet fun c => (if keep then c.comments else [], { c with comments := [] })

/-- the position of the fault, if reading fails -/
def fault? (p : Reader α) : Reader (Except Nat α) := fun context c =>
  match p context c with
  | .ok (a, c') => .ok (.ok a, c')
  | .error position => .ok (.error position, c)

/-- reads if possible, and otherwise stays -/
def attempt (p : Reader α) : Reader (Option α) := do
  match ← fault? p with
  | .ok a => return some a
  | .error _ => return none

/-- the second reading where the first one fails; of two failures the later one counts -/
def orElse (p q : Reader α) : Reader α := do
  match ← fault? p with
  | .ok a => return a
  | .error first =>
    match ← fault? q with
    | .ok a => return a
    | .error second => failAt (max first second)

/-- looks ahead -/
def peek (p : Reader α) : Reader (Option α) := fun context c =>
  match p context c with
  | .ok (a, _) => .ok (some a, c)
  | .error _ => .ok (none, c)

/-- reads outside of any conditional -/
def afresh (p : Reader α) : Reader α := withReader ({ · with inConditional := false }) p

/-! ## Repetition -/

/-- a bound for every loop: each round takes at least one character -/
def loopBound : Reader Nat := do return (← get).after.length + 1

/-- reads on while there is something, at most `bound` times -/
def collectUpTo (p : Reader (Option α)) : (bound : Nat) → Reader (List α)
  | 0 => return []
  | bound + 1 => do
    match ← p with
    | none => return []
    | some a => return a :: (← collectUpTo p bound)

/-- reads on while there is something -/
def collect (p : Reader (Option α)) : Reader (List α) := do collectUpTo p (← loopBound)

/-- extends a value while there is something to extend it by, at most `bound` times -/
def extendUpTo (step : α → Reader (Option α)) : (bound : Nat) → α → Reader α
  | 0, a => return a
  | bound + 1, a => do
    match ← step a with
    | none => return a
    | some a => extendUpTo step bound a

/-- extends a value while there is something to extend it by -/
def extendAll (step : α → Reader (Option α)) (a : α) : Reader α := do extendUpTo step (← loopBound) a

/-- items up to a closing punctuator, with a comma between two and possibly behind the last -/
def itemsUpTo (close : String) (item : Reader α) : (bound : Nat) → Reader (List α)
  | 0 => fail
  | bound + 1 => do
    if ← eatMark close then return []
    let a ← item
    if ← eatMark "," then return a :: (← itemsUpTo close item bound)
    expectMark close
    return [a]

/-- items up to a closing punctuator -/
def items (close : String) (item : Reader α) : Reader (List α) := do itemsUpTo close item (← loopBound)

/-- items with a punctuator between each two -/
def separated (mark : String) (item : Reader α) : Reader (List α) := do
  let first ← item
  let others ← collect do
    if ← eatMark mark then return some (← item) else return none
  return first :: others

end Reader

end TerseStyle.Script

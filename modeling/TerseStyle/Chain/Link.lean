/-
Links of a style chain. The skeleton is cut into lexemes (names as long as possible, quoted texts, single marks, blanks
left out), and the lexemes are read as the root name followed by links, each a dot with a name or a call on a placeholder.
-/
import TerseStyle.Chain.Argument
import TerseStyle.Chain.Fault

namespace TerseStyle.Chain

/-- one step of a chain -/
inductive Link where
  /-- a name after a dot -/
  | access (name : Text)
  /-- a call on the argument with this index -/
  | call (index : Nat)
  deriving DecidableEq, Repr

/-! ## Lexemes -/

/-- a piece of a skeleton -/
inductive Lexeme where
  | name (t : Text)
  | quoted (inner : Text)
  | mark (c : Char)
  deriving DecidableEq, Repr

/-- characters of names in a chain -/
def isNameChar (c : Char) : Bool := isAlphanumeric c || c = '_' || c = '$'

/-- puts a name character in front of lexemes that start where `rest` does -/
def addNameChar (c : Char) (rest : Text) (lexemes : List Lexeme) : List Lexeme :=
  match lexemes with
  | .name t :: more => if rest.head?.any isNameChar then .name (c :: t) :: more else .name [c] :: lexemes
  | _ => .name [c] :: lexemes

/-- cuts a text into lexemes; `inQuote` is the quoted text read so far, in reverse. A quote that is never closed is
a single mark, and what follows it is not cut. -/
def lexemesFrom : (inQuote : Option Text) → Text → List Lexeme
  | none, [] => []
  | some _, [] => [.mark '"']
  | some inner, c :: rest =>
    if c = '"' then .quoted inner.reverse :: lexemesFrom none rest else lexemesFrom (some (c :: inner)) rest
  | none, c :: rest =>
    if c = '"' then lexemesFrom (some []) rest
    else if isNameChar c then addNameChar c rest (lexemesFrom none rest)
    else if isBlank c then lexemesFrom none rest
    else .mark c :: lexemesFrom none rest

/-- the lexemes of a skeleton -/
def lexemes (skeleton : Text) : List Lexeme := lexemesFrom none skeleton

theorem addNameChar_congr {c : Char} {s t : Text} {ls : List Lexeme} (h : s.head? = t.head?) :
    addNameChar c s ls = addNameChar c t ls := by
  unfold addNameChar; rw [h]

/-- one character outside of quotes -/
theorem lexemes_cons (c : Char) (rest : Text) :
    lexemes (c :: rest) =
      if c = '"' then lexemesFrom (some []) rest
      else if isNameChar c then addNameChar c rest (lexemes rest)
      else if isBlank c then lexemes rest
      else .mark c :: lexemes rest := by
  rw [lexemes, lexemesFrom]; rfl

/-- the first character of a lexeme -/
def Lexeme.firstChar : Lexeme → Char
  | .name t => t.headD '_'
  | .quoted _ => '"'
  | .mark c => c

/-! ## Links -/

/-- reads lexemes as links -/
def linksOf (skeleton : Text) : List Lexeme → Except Fault (List Link)
  | [] => .ok []
  | .mark '.' :: .name name :: rest => (linksOf skeleton rest).map (.access name :: ·)
  | .mark '.' :: _ => .error (.missingName skeleton)
  | .mark '(' :: .quoted inner :: rest =>
    match placeholderIndex? inner with
    | none => .error (.missingPlaceholder skeleton)
    | some index =>
      match rest with
      | .mark ')' :: more => (linksOf skeleton more).map (.call index :: ·)
      | _ => .error (.unclosedCall skeleton)
  | .mark '(' :: _ => .error (.missingPlaceholder skeleton)
  | lexeme :: _ => .error (.unexpected lexeme.firstChar skeleton)

theorem linksOf_nil (skeleton : Text) : linksOf skeleton [] = .ok [] := by rw [linksOf]

/-- the name in front of lexemes, empty if they start with something else, and what follows it -/
def leadingName : List Lexeme → Text × List Lexeme
  | .name t :: rest => (t, rest)
  | lexemes => ([], lexemes)

/-- reads a skeleton as the root name and the links after it -/
def parse (skeleton root : Text) : Except Fault (List Link) :=
  let (found, rest) := leadingName (lexemes skeleton)
  if found = root then linksOf skeleton rest else .error (.wrongRoot root found skeleton)

end TerseStyle.Chain

/-
Reading blocks, functions and classes.
-/
import TerseStyle.Script.TypeSyntax

namespace TerseStyle.Script

open Reader

/-! ## Blocks -/

/-- statements up to a closing brace -/
def statements (g : Grammar) : Reader (List Node) :=
  collect do if ← atMark "\x7d" then return none else return some (← g.statement)

/-- a block -/
def block (g : Grammar) : Reader Node := do
  expectMark "\x7b"
  let body ← afresh (statements g)
  let closing ← takeComments
  expectMark "\x7d"
  return .plain (.block closing) body

/-! ## Functions -/

/-- type parameters, parameters and result type -/
def signature (g : Grammar) : Reader Node := do
  let bounds ← typeParameters g
  let inputs ← parameters g
  return .plain .signature [bounds, inputs, ← annotation g]

/-- a star behind the word of a generator function -/
def star : Reader Text := do
  if ← eatMark "*" then return ['*'] else return []

/-- a name, if there is one -/
def optionalName : Reader Text := do
  match ← attempt identifier with
  | some t => return t
  | none => return []

/-- a function with a word in front or none -/
def function (g : Grammar) (modifier : Text) : Reader Node := do
  expectWord "function"
  let star ← star
  let name ← optionalName
  let s ← signature g
  return .plain (.function modifier star name) [s, ← block g]

/-- the arrow of an arrow function must be on the line where its parameters end -/
def atArrow : Reader Bool := do return (← atMark "=>") && !(← get).lineBreak

/-- an arrow function from its arrow on, behind its type parameters, parameters and result type -/
def arrowFrom (g : Grammar) (isAsync : Bool) (head : List Node) : Reader Node := do
  unless ← atArrow do fail
  skip
  let body ← if ← atMark "\x7b" then block g else g.assignment
  return .plain (.arrow isAsync) (head ++ [body])

/-- the type parameters, parameters and result type of an arrow function with parentheses; inside a conditional it has
no result type -/
def arrowHead (g : Grammar) : Reader (List Node) := do
  let bounds ← typeParameters g
  let inputs ← parameters g
  let result ← if (← read).inConditional then pure .absent else annotation g
  unless ← atArrow do fail
  return [bounds, inputs, result]

/-- an arrow function with parentheses, if there is one -/
def arrow? (g : Grammar) (isAsync : Bool) : Reader (Option Node) := do
  match ← attempt (arrowHead g) with
  | some head => return some (← arrowFrom g isAsync head)
  | none => return none

/-- an arrow function of one name -/
def nameArrow (g : Grammar) (isAsync : Bool) : Reader Node := do
  let name ← identifier
  arrowFrom g isAsync [.absent, .plain .parameters [.plain (.word name) []], .absent]

/-- a method from its key on -/
def methodFrom (g : Grammar) (words : List Text) (k : Node) : Reader Node := do
  let s ← signature g
  return .plain (.method words) [k, s, ← block g]

/-! ## Classes -/

/-- words in front of a member of a class -/
def memberWords : List String := ["static", "async", "get", "set", "public", "private", "protected", "readonly"]

/-- the end of a statement: a semicolon, or none where a line or a block ends -/
def semicolon : Reader Unit := do
  unless ← eatMark ";" do
    let c ← get
    unless c.lineBreak || c.token = .ended || c.token = .punctuator ['}'] do fail

/-- a field from behind its key on -/
def fieldFrom (g : Grammar) (words : List Text) (k : Node) : Reader Node := do
  let type ← annotation g
  let value ← behind "=" (afresh g.assignment)
  semicolon
  return .plain (.field words) [k, type, value]

/-- puts comments before a node -/
def withComments (before : List Comment) (node : Node) : Node :=
  if before.isEmpty then node else .plain (.commented before []) [node]

/-- a member of a class -/
def classMember (g : Grammar) : Reader Node := do
  let before ← takeComments
  let words ← modifiers memberWords
  let k ← key g
  let member ← if (← atMark "(") || (← atMark "<") then methodFrom g words k else fieldFrom g words k
  return withComments before member

/-- the members of a class, up to its closing brace -/
def classMembers (g : Grammar) : Reader (List Node) := do
  let members ← collect do
    let _ ← collect do if ← eatMark ";" then return some () else return none
    if ← atMark "\x7d" then return none else return some (← classMember g)
  expectMark "\x7d"
  return members

/-- a class -/
def classSyntax (g : Grammar) : Reader Node := do
  expectWord "class"
  let name ← optionalName
  let parent ← if ← eatWord "extends" then g.unary else pure .absent
  expectMark "\x7b"
  let members ← afresh (classMembers g)
  return .plain (.classBody name) [.plain .members members, parent]

end TerseStyle.Script

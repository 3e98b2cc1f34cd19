/-
Reading expressions. A chain of binary operators is read flat and then grouped by precedence; an arrow function in
parentheses is told from an expression in parentheses by what follows.
-/
import TerseStyle.Script.Operator
import TerseStyle.Script.Function

namespace TerseStyle.Script

open Reader

/-! ## Templates and regular expressions -/

/-- the rest of a template behind its backtick or behind an interpolation, in the bare text behind the last token; where
it has no end, reading fails at the backtick or brace in front, which is at `opening` -/
def templateFrom (g : Grammar) (opening : Nat) : (bound : Nat) → Reader (List Text × List Node)
  | 0 => fail
  | bound + 1 => do
    let c ← get
    match templatePiece [] c.after with
    | .error none => failAt opening
    | .error (some n) => failAt (c.lastEnd + n)
    | .ok piece =>
      set (c.skipBare piece.length)
      match piece.ending with
      | .closed => return ([piece.written], [])
      | .interpolated =>
        let e ← afresh g.expression
        let brace := (← get).offset
        expectMark "\x7d"
        let (pieces, expressions) ← templateFrom g brace bound
        return (piece.written :: pieces, e :: expressions)

/-- a template literal -/
def template (g : Grammar) : Reader Node := do
  let opening := (← get).offset
  expectChar '\x60'
  let (pieces, expressions) ← templateFrom g opening (← loopBound)
  return .plain (.template pieces) expressions

/-- a regular expression -/
def regex : Reader Node := do
  let c ← get
  match regexLength false 1 (c.rest.drop 1) with
  | none => fail
  | some n =>
    let n := n + ((c.rest.drop n).takeWhile isIdentifierPart).length
    advance n
    return .plain (.literal (c.rest.take n)) []

/-! ## Arguments, arrays and objects -/

/-- an expression, possibly spread -/
def spreadable (g : Grammar) : Reader Node := do
  if ← eatMark "..." then return .plain .spread [← g.assignment] else g.assignment

/-- arguments in parentheses -/
def arguments (g : Grammar) : Reader (List Node) := do
  expectMark "("
  afresh (items ")" (spreadable g))

/-- an element of an array -/
def arrayElement (g : Grammar) : Reader Node := do
  if ← atMark "," then return .plain .hole [] else spreadable g

/-- a property of an object -/
def property (g : Grammar) : Reader Node := do
  let before ← takeComments
  if ← eatMark "..." then return withComments before (.plain .spread [← g.assignment])
  let words ← modifiers ["async", "get", "set"]
  let start ← get
  let k ← key g
  if (← atMark "(") || (← atMark "<") then return withComments before (← methodFrom g words k)
  unless words.isEmpty do fail
  if ← eatMark ":" then return withComments before (.plain .property [k, ← g.assignment])
  let after ← get
  set start
  let name ← identifier
  set after
  return withComments before (.plain (.shorthand name) [])

/-! ## Operands -/

/-- whether a node is an arrow function -/
def isArrow : Node → Bool
  | .plain (.arrow _) _ => true
  | .plain (.commented _ _) [.plain (.arrow _) _] => true
  | _ => false

/-- an expression in parentheses -/
def parenthesized (g : Grammar) : Reader Node := do
  expectMark "("
  let e ← afresh g.expression
  expectMark ")"
  return .plain .paren [e]

/-- an expression in parentheses, or an arrow function. Empty parentheses without an arrow fail where they open, and
where neither can be read, the later failure counts. -/
def parenthesizedOrArrow (g : Grammar) : Reader Node := do
  let start ← get
  match ← fault? (parenthesized g) with
  | .ok e =>
    let c ← get
    let mayHaveResult := c.token = .punctuator [':'] && (← read).dialect.hasTypes && !(← read).inConditional
    if (← atArrow) || mayHaveResult then
      set start
      match ← arrow? g false with
      | some f => return f
      | none => set c; return e
    else return e
  | .error first =>
    match ← fault? (arrowHead g) with
    | .ok head => arrowFrom g false head
    | .error second =>
      if (start.advance 1).token = .punctuator [')'] then failAt start.offset else failAt (max first second)

/-- behind the word `async`: a function, an arrow function, or nothing special -/
def asyncOperand? (g : Grammar) : Reader (Option Node) := do
  let start ← get
  skip
  let f ←
    if (← get).lineBreak then pure none
    else if ← atWord "function" then some <$> function g "async".toList
    else if (← atMark "(") || (← atMark "<") then arrow? g true
    else if (← peek (do let _ ← identifier; unless ← atArrow do fail)).isSome then some <$> nameArrow g true
    else pure none
  if f.isNone then set start
  return f

/-- members of the callee of a construction -/
def constructMember (g : Grammar) (e : Node) : Reader (Option Node) := do
  if ← eatMark "." then return some (.plain (.member false (← anyWord)) [e])
  if ← eatMark "[" then
    let index ← afresh g.expression
    expectMark "]"
    return some (.plain (.index false) [e, index])
  return none

/-- a construction -/
def construct (g : Grammar) : Reader Node := do
  expectWord "new"
  let callee ← extendAll (constructMember g) (← g.operand)
  let types ← if (← read).dialect.hasTypes then attempt (typeArguments g) else pure none
  if ← atMark "(" then
    return .plain (.construct true) (callee :: types.getD .absent :: (← arguments g))
  else return .plain (.construct false) [callee, types.getD .absent]

/-- words that are values and not variables -/
def literalWords : List Text := ["null", "true", "false"].map String.toList

/-- reserved words that can be operands -/
def operandWords : List Text := ["this", "super", "import"].map String.toList

/-- an operand that starts with a word -/
def wordOperand (g : Grammar) (t : Text) : Reader Node := do
  if literalWords.contains t then skip; return .plain (.literal t) []
  if operandWords.contains t then skip; return .plain (.word t) []
  if t = "function".toList then return ← function g []
  if t = "class".toList then return ← classSyntax g
  if t = "new".toList then return ← construct g
  if t = "async".toList then
    if let some e ← asyncOperand? g then return e
  let start ← get
  let name ← identifier
  if ← atArrow then
    set start
    nameArrow g false
  else return .plain (.word name) []

/-- an operand that starts with an angle bracket -/
def angleOperand (g : Grammar) : Reader Node := do
  let dialect := (← read).dialect
  if dialect.hasTypes then
    if let some f ← arrow? g false then return f
  if dialect.hasMarkup then g.markup else fail

/-- an expression without operators, calls and members behind it -/
def operand (g : Grammar) : Reader Node := do
  match (← get).token with
  | .word t => wordOperand g t
  | .number t => skip; return .plain (.literal t) []
  | .string t => skip; return .plain (.literal t) []
  | _ =>
    if ← atMark "(" then return ← parenthesizedOrArrow g
    if ← eatMark "[" then return .plain .array (← afresh (items "]" (arrayElement g)))
    if ← eatMark "\x7b" then return .plain .object (← afresh (items "\x7d" (property g)))
    if ← atMark "\x60" then return ← template g
    if (← atMark "/") || (← atMark "/=") then return ← regex
    if ← atMark "<" then return ← angleOperand g
    fail

/-! ## Members and calls -/

/-- what stands behind a question mark and a dot -/
def optionalLink (g : Grammar) (e : Node) : Reader Node := do
  if ← atMark "(" then return .plain (.call true) (e :: .absent :: (← arguments g))
  if ← eatMark "[" then
    let index ← afresh g.expression
    expectMark "]"
    return .plain (.index true) [e, index]
  return .plain (.member true (← anyWord)) [e]

/-- a call with type arguments -/
def typedCall? (g : Grammar) (e : Node) : Reader (Option Node) := do
  let types ← attempt do
    let types ← typeArguments g
    unless ← atMark "(" do fail
    return types
  match types with
  | some types => return some (.plain (.call false) (e :: types :: (← arguments g)))
  | none => return none

/-- extends an operand by a member access, a call, a template or a non-null mark -/
def link (g : Grammar) (e : Node) : Reader (Option Node) := do
  if isArrow e then return none
  if ← eatMark "?." then return some (← optionalLink g e)
  if let some e' ← constructMember g e then return some e'
  if ← atMark "(" then return some (.plain (.call false) (e :: .absent :: (← arguments g)))
  if ← atMark "\x60" then return some (.plain .tagged [e, ← template g])
  if (← read).dialect.hasTypes then
    if !(← get).lineBreak then
      if ← eatMark "!" then return some (.plain .nonNull [e])
    if ← atMark "<" then return ← typedCall? g e
  return none

/-- an operand with what extends it -/
def linked (g : Grammar) : Reader Node := do extendAll (link g) (← operand g)

/-! ## Operators -/

/-- punctuators that are unary operators -/
def unaryMarks : List Text := ["!", "~", "+", "-"].map String.toList

/-- words that are unary operators -/
def unaryWords : List Text := ["typeof", "void", "delete", "await"].map String.toList

/-- increments and decrements -/
def updateMarks : List Text := ["++", "--"].map String.toList

/-- an operand with an increment or decrement behind it -/
def updated (g : Grammar) : Reader Node := do
  let e ← linked g
  match (← get).token with
  | .punctuator mark =>
    if updateMarks.contains mark && !(← get).lineBreak && !isArrow e then
      skip
      return .plain (.update mark false) [e]
    else return e
  | _ => return e

/-- a type assertion in angle brackets -/
def assertion (g : Grammar) : Reader Node := do
  expectMark "<"
  let type ← g.type
  expectChar '>'
  return .plain .typeAssertion [type, ← g.unary]

/-- an expression without binary operators -/
def unary (g : Grammar) : Reader Node := do
  match (← get).token with
  | .punctuator mark =>
    if unaryMarks.contains mark then skip; return .plain (.unary mark) [← g.unary]
    if updateMarks.contains mark then skip; return .plain (.update mark true) [← g.unary]
    if mark = ['<'] && (← read).dialect = .typed then orElse (updated g) (assertion g) else updated g
  | .word t => if unaryWords.contains t then skip; return .plain (.unary t) [← g.unary] else updated g
  | _ => updated g

/-- the binary operator that is next -/
def binaryOperator? : Reader (Option Text) := do
  match (← get).token with
  | .punctuator mark => return if (precedence? mark).isSome then some mark else none
  | .word t =>
    if typeOperators.contains t then
      return if (← read).dialect.hasTypes && !(← get).lineBreak then some t else none
    return if (precedence? t).isSome then some t else none
  | _ => return none

/-- the type behind a type operator; `const` stands for the narrowest one -/
def assertedType (g : Grammar) : Reader Node := do
  if ← eatWord "const" then return .plain (.word "const".toList) [] else g.type

/-- whether an expression is a unary operation, which no power applies to -/
def isUnaryOperation : Node → Bool
  | .plain (.unary _) _ => true
  | _ => false

/-- a binary operator with its right operand, behind the operand `left` -/
def operation? (g : Grammar) (left : Node) : Reader (Option (Text × Node)) := do
  match ← binaryOperator? with
  | none => return none
  | some op =>
    skip
    if typeOperators.contains op then return some (op, ← assertedType g)
    if op = ['*', '*'] && isUnaryOperation left then fail
    return some (op, ← unary g)

/-- binary operators with their right operands, behind the operand `left`, at most `bound` of them -/
def operationsUpTo (g : Grammar) : (bound : Nat) → (left : Node) → Reader (List (Text × Node))
  | 0, _ => return []
  | bound + 1, left => do
    match ← operation? g left with
    | none => return []
    | some (op, right) => return (op, right) :: (← operationsUpTo g bound right)

/-- operands with binary operators between them -/
def binary (g : Grammar) : Reader Node := do
  let first ← unary g
  if isArrow first then return first
  return group [] first (← operationsUpTo g (← loopBound) first)

/-- a conditional expression, or what its test is -/
def conditional (g : Grammar) : Reader Node := do
  let test ← binary g
  if isArrow test then return test
  if ← eatMark "?" then
    let yes ← withReader ({ · with inConditional := true }) g.assignment
    expectMark ":"
    return .plain .conditional [test, yes, ← g.assignment]
  else return test

/-! ## Assignments and sequences -/

/-- punctuators that are assignment operators -/
def assignmentMarks : List Text :=
  ["=", "+=", "-=", "*=", "/=", "%=", "**=", "<<=", ">>=", ">>>=", "&=", "|=", "^=", "&&=", "||=",
    "??="].map String.toList

/-- whether something can be assigned to a node -/
def isTarget : Node → Bool
  | .plain form parts =>
    match form, parts with
    | .word _, _ => true
    | .member _ _, _ => true
    | .index _, _ => true
    | .paren, _ => true
    | .nonNull, _ => true
    | .typed _, _ => true
    | .arrayPattern, _ => true
    | .objectPattern, _ => true
    | _, _ => false
  | _ => false

/-- an expression without commas -/
def assignment (g : Grammar) : Reader Node := do
  let before ← takeComments
  let start ← get
  let e ← conditional g
  let node ← match (← get).token with
    | .punctuator mark =>
      if assignmentMarks.contains mark && !isArrow e then
        let target ←
          match e with
          | .plain .array _ | .plain .object _ => set start; g.target
          | _ => pure e
        unless isTarget target do failAt start.offset
        skip
        pure (.plain (.assign mark) [target, ← g.assignment])
      else pure e
    | _ => pure e
  return withComments before node

/-- an expression -/
def expression (g : Grammar) : Reader Node := do
  match ← separated "," (assignment g) with
  | [e] => return e
  | es => return .plain .sequence es

end TerseStyle.Script

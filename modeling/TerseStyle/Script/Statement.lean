/-
Reading statements. Comments before a statement belong to it, and so do comments behind it on its last line.
-/
import TerseStyle.Script.Expression

namespace TerseStyle.Script

open Reader

/-! ## Declarations -/

/-- a declared pattern with its type and value -/
def declarator (g : Grammar) : Reader Node := do
  let p ← annotated g
  return .plain .declarator [p, ← behind "=" g.assignment]

/-- a declaration without its end -/
def declaration (g : Grammar) (kind : Text) : Reader Node := do
  skip
  return .plain (.declaration kind) (← separated "," (declarator g))

/-- a type alias from its name on -/
def typeAlias (g : Grammar) : Reader Node := do
  let name ← identifier
  let bounds ← typeParameters g
  expectMark "="
  let type ← g.type
  semicolon
  return .plain (.typeAlias name) [bounds, type]

/-! ## Control flow -/

/-- a condition in parentheses -/
def condition (g : Grammar) : Reader Node := do
  expectMark "("
  let test ← g.expression
  expectMark ")"
  return test

/-- leaves out the comments behind a statement -/
def dropAfter : Node → Node
  | .plain (.commented before _) parts => .plain (.commented before []) parts
  | node => node

/-- a conditional statement; a comment before `else` is left out, as it could swallow that word -/
def ifElse (g : Grammar) : Reader Node := do
  expectWord "if"
  let test ← condition g
  let yes ← g.statement
  if ← eatWord "else" then return .plain .ifElse [test, dropAfter yes, ← g.statement]
  else return .plain .ifElse [test, yes, .absent]

/-- what a loop runs over: a declared pattern without a value, or an expression -/
def loopTarget (g : Grammar) : Reader Node := do
  match (← get).token with
  | .word t =>
    if ["const", "let", "var"].any (·.toList = t) then
      skip
      return .plain (.loopVariable t) [← annotated g]
    else unary g
  | _ => targetPattern g

/-- a loop over the values of a collection -/
def forOf (g : Grammar) : Reader Node := do
  expectWord "for"
  expectMark "("
  let target ← loopTarget g
  expectWord "of"
  let values ← g.assignment
  expectMark ")"
  return .plain .forOf [target, values, ← g.statement]

/-- a loop under a condition -/
def whileLoop (g : Grammar) : Reader Node := do
  expectWord "while"
  let test ← condition g
  return .plain .whileLoop [test, ← g.statement]

/-- a return statement -/
def returnStatement (g : Grammar) : Reader Node := do
  expectWord "return"
  let c ← get
  let ends := c.lineBreak || c.token = .ended || c.token = .punctuator [';'] || c.token = .punctuator ['}']
  let value ← if ends then pure .absent else g.expression
  semicolon
  return .plain .returnStatement [value]

/-! ## Imports and exports -/

/-- a name in a list, possibly under another name -/
def moduleName : Reader Text := do
  let name ← match (← get).token with
    | .string t => skip; pure t
    | _ => anyWord
  if ← eatWord "as" then return name ++ " as ".toList ++ (← anyWord) else return name

/-- names in braces, as they are written -/
def moduleNames : Reader Text := do
  expectMark "\x7b"
  let names ← items "\x7d" moduleName
  if names.isEmpty then return "\x7b\x7d".toList
  return "\x7b ".toList ++ ", ".toList.intercalate names ++ " \x7d".toList

/-- everything, possibly under a name -/
def moduleStar : Reader Text := do
  expectMark "*"
  if ← eatWord "as" then return "* as ".toList ++ (← anyWord) else return ['*']

/-- the module behind `from`, a string -/
def moduleSource : Reader Text := do
  match (← get).token with
  | .string t => skip; return t
  | _ => fail

/-- what an import takes, as it is written -/
def importedNames : Reader Text := do
  if ← atMark "\x7b" then return ← moduleNames
  if ← atMark "*" then return ← moduleStar
  let first ← identifier
  if ← eatMark "," then
    let more ← if ← atMark "*" then moduleStar else moduleNames
    return first ++ ", ".toList ++ more
  else return first

/-- the word in front of names that are types only -/
def typeOnly : Reader Text := do
  unless (← read).dialect.hasTypes do return []
  let word : Reader Text := do
    expectWord "type"
    if (← atMark "\x7b") || (← atMark "*") then return "type ".toList
    let _ ← peek identifier
    if (← atWord "from") || (← get).token.isString then fail else return "type ".toList
  match ← attempt word with
  | some t => return t
  | none => return []

/-- an import -/
def importStatement : Reader Node := do
  expectWord "import"
  if let some source ← attempt moduleSource then
    semicolon
    return .plain (.moduleClause "import ".toList source) []
  let word ← typeOnly
  let names ← importedNames
  expectWord "from"
  let source ← moduleSource
  semicolon
  return .plain (.moduleClause ("import ".toList ++ word ++ names ++ " from ".toList) source) []

/-- an export of names or of a whole module -/
def exportedNames (word : Text) : Reader Node := do
  let isStar ← atMark "*"
  let names ← if isStar then moduleStar else moduleNames
  let t := "export ".toList ++ word ++ names
  if isStar then expectWord "from"
  let fromModule ← if isStar then pure true else eatWord "from"
  if fromModule then
    let source ← moduleSource
    semicolon
    return .plain (.moduleClause (t ++ " from ".toList) source) []
  else
    semicolon
    return .plain (.moduleClause t []) []

/-- whether an async function comes next -/
def atAsyncFunction : Reader Bool := do
  return (← peek do
    expectWord "async"
    if (← get).lineBreak then fail
    expectWord "function").isSome

/-- an expression, a function or a class, exported as the default -/
def defaultExport (g : Grammar) : Reader Node := do
  if ← atWord "function" then return .plain .exportDefault [← function g []]
  if ← atAsyncFunction then
    skip
    return .plain .exportDefault [← function g "async".toList]
  if ← atWord "class" then return .plain .exportDefault [← classSyntax g]
  let e ← g.assignment
  semicolon
  return .plain .exportDefault [.plain .expressionStatement [e]]

/-! ## Statements -/

/-- an expression as a statement -/
def expressionStatement (g : Grammar) : Reader Node := do
  let e ← g.expression
  semicolon
  return .plain .expressionStatement [e]

/-- whether a declaration of `let` comes next, rather than a variable of that name -/
def atLet : Reader Bool := do
  return (← peek do
    expectWord "let"
    unless (← atMark "[") || (← atMark "\x7b") do
      let _ ← identifier).isSome

/-- whether a type alias comes next -/
def atTypeAlias : Reader Bool := do
  unless (← read).dialect.hasTypes do return false
  return (← peek do
    expectWord "type"
    if (← get).lineBreak then fail
    let _ ← identifier).isSome

/-- whether an import comes next, rather than an expression that imports -/
def atImport : Reader Bool := do
  return (← peek do
    expectWord "import"
    if (← atMark "(") || (← atMark ".") then fail).isSome

/-- fails unless a word, possibly a star, and a name come next -/
def expectNamed (word : String) : Reader Unit := do
  let start ← get
  expectWord word
  let _ ← star
  let _ ← identifier
  set start

/-- a function with a name -/
def namedFunction (g : Grammar) (modifier : Text) : Reader Node := do
  expectNamed "function"
  function g modifier

/-- a class with a name -/
def namedClass (g : Grammar) : Reader Node := do
  expectNamed "class"
  classSyntax g

/-- a declaration with its end, if one comes next -/
def declaration? (g : Grammar) : Reader (Option Node) := do
  let kind := (← get).token
  let isVariable ← if (← atWord "const") || (← atWord "var") then pure true else atLet
  if isVariable then
    match kind with
    | .word t =>
      let d ← declaration g t
      semicolon
      return some d
    | _ => fail
  if ← atWord "function" then return some (← namedFunction g [])
  if ← atAsyncFunction then
    skip
    return some (← namedFunction g "async".toList)
  if ← atWord "class" then return some (← namedClass g)
  if ← atTypeAlias then
    skip
    return some (← typeAlias g)
  return none

/-- an export -/
def exportStatement (g : Grammar) : Reader Node := do
  expectWord "export"
  if ← eatWord "default" then return ← defaultExport g
  if (← atMark "\x7b") || (← atMark "*") then return ← exportedNames []
  if let some d ← declaration? g then return .plain .exported [d]
  exportedNames (← typeOnly)

/-- a statement without the comments around it -/
def bareStatement (g : Grammar) : Reader Node := do
  if ← atMark "\x7b" then return ← block g
  if ← eatMark ";" then return .plain .emptyStatement []
  if ← atWord "if" then return ← ifElse g
  if ← atWord "for" then return ← forOf g
  if ← atWord "while" then return ← whileLoop g
  if ← atWord "return" then return ← returnStatement g
  if ← atImport then return ← importStatement
  if ← atWord "export" then return ← exportStatement g
  if let some d ← declaration? g then return d
  expressionStatement g

/-- takes the comments that stand on the line where the last token ended, as far as they are kept -/
def takeSameLine : Reader (List Comment) := do
  let keep := (← read).keepsComments
  modifyGet fun c =>
    (if keep then c.comments.takeWhile (!·.ownLine) else [], { c with comments := c.comments.dropWhile (!·.ownLine) })

/-- puts comments around a statement -/
def surround (before after : List Comment) (node : Node) : Node :=
  if before.isEmpty && after.isEmpty then node else .plain (.commented before after) [node]

/-- a statement -/
def statementSyntax (g : Grammar) : Reader Node := do
  let before ← takeComments
  let node ← bareStatement g
  return surround before (← takeSameLine) node

end TerseStyle.Script

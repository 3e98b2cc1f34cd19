/-
Parentheses. `Node.canonical` drops the parentheses of a tree and puts those back, and those in that were missing, which
the tree needs so that it is read back as it is. A sequence is flattened, and values in it that have no effect are left
out as far as it keeps two expressions.
-/
import TerseStyle.Script.Operator

namespace TerseStyle.Script

/-! ## Kinds of expressions -/

/-- the form of an expression, comments aside -/
def Node.form? : Node → Option Form
  | .plain (.commented _ _) [.plain form _] => some form
  | .plain form _ => some form
  | .element .. => none

namespace Form

/-- a comma expression -/
def isSequence : Form → Bool
  | sequence => true
  | _ => false

/-- expressions that bind less than any binary operator -/
def isLoose : Form → Bool
  | sequence | assign _ | conditional | arrow _ => true
  | _ => false

/-- unary operations -/
def isUnary : Form → Bool
  | unary _ | typeAssertion => true
  | _ => false

/-- the operator of a binary operation -/
def operator? : Form → Option Text
  | binary op => some op
  | typed op => some op
  | _ => none

/-- expressions that cannot stand before a member access or a call -/
def isNoHead : Form → Bool
  | sequence | assign _ | conditional | arrow _ | unary _ | update _ _ | binary _ | typed _ | typeAssertion | object
  | classBody _ | construct false => true
  | _ => false

/-- functions other than arrow functions -/
def isFunction : Form → Bool
  | function .. => true
  | _ => false

/-- expressions without an effect -/
def isValue : Form → Bool
  | literal _ | string _ | function .. | arrow _ => true
  | _ => false

/-- forms whose first part is what they start with -/
def startsWithPart : Form → Bool
  | tagged | update _ false | binary _ | conditional | assign _ | sequence | member _ _ | index _ | call _ | typed _
  | nonNull | commented _ _ => true
  | _ => false

/-- what a statement cannot start with -/
def isStatementStart : Form → Bool
  | object | function .. | classBody _ => true
  | _ => false

end Form

namespace Node

/-- whether the form of an expression has a property -/
def has (p : Form → Bool) (e : Node) : Bool := e.form?.any p

/-- puts parentheses around an expression -/
def wrapped (e : Node) : Node := .plain .paren [e]

/-- puts parentheses around an expression whose form has a property -/
def wrapIf (p : Form → Bool) (e : Node) : Node := if e.has p then e.wrapped else e

/-- drops parentheses -/
def bare : Node → Node
  | .plain .paren [e] => e
  | e => e

/-- whether an expression is a chain of accesses and calls, one of them optional -/
def isOptionalChain : Node → Bool
  | .plain (.member optional _) (e :: _) => optional || isOptionalChain e
  | .plain (.index optional) (e :: _) => optional || isOptionalChain e
  | .plain (.call optional) (e :: _) => optional || isOptionalChain e
  | .plain .nonNull (e :: _) => isOptionalChain e
  | _ => false

/-- whether a chain of accesses has a call in it -/
def hasCall : Node → Bool
  | .plain (.call _) _ => true
  | .plain (.member _ _) (e :: _) => hasCall e
  | .plain (.index _) (e :: _) => hasCall e
  | .plain .tagged (e :: _) => hasCall e
  | .plain .nonNull (e :: _) => hasCall e
  | _ => false

/-- puts parentheses around what an expression starts with, if its form has a property -/
def guardStart (p : Form → Bool) : Node → Node
  | .plain form (head :: rest) =>
    if p form then wrapped (.plain form (head :: rest))
    else if form.startsWithPart then .plain form (guardStart p head :: rest)
    else .plain form (head :: rest)
  | .plain form [] => if p form then wrapped (.plain form []) else .plain form []
  | .element tag types attributes closed children => .element tag types attributes closed children

end Node

/-! ## Operands -/

/-- short-circuit operators other than the one for missing values -/
def isLogical (op : Text) : Bool := op = ['&', '&'] || op = ['|', '|']

/-- whether the left operand of an operator needs parentheses -/
def wrapsLeft (op : Text) (form : Form) : Bool :=
  form.isLoose || (isRightGrouped op && form.isUnary) ||
    match form.operator? with
    | none => false
    | some inner =>
      if inner = ['?', '?'] && op ≠ inner then true
      else if op = ['?', '?'] && isLogical inner then true
      else if typeOperators.contains inner then precedence inner ≤ precedence op
      else precedence inner < precedence op || (precedence inner = precedence op && isRightGrouped op)

/-- whether the right operand of an operator needs parentheses -/
def wrapsRight (op : Text) (form : Form) : Bool :=
  form.isLoose ||
    match form.operator? with
    | none => false
    | some inner =>
      if inner = op then !isLogical op
      else precedence inner ≤ precedence op || (inner = ['&', '&'] && op = ['?', '?'])

/-- whether the operand of a type operator needs parentheses -/
def wrapsTyped (form : Form) : Bool :=
  form.isLoose || form.operator?.any fun inner => precedence inner < precedence "as".toList

/-- whether the operand of a unary operator needs parentheses -/
def wrapsUnary (form : Form) : Bool := form.isLoose || form.operator?.isSome

/-! ## Sequences -/

/-- the expressions of a sequence, or the one expression -/
def sequenceItems : Node → List Node
  | .plain .sequence es => es
  | e => [e]

/-- leaves out values before the last expression, except for the first value -/
def dropValues : (seen : Bool) → List Node → List Node
  | _, [] => []
  | _, [e] => [e]
  | seen, e :: rest =>
    if e.has Form.isValue then if seen then dropValues true rest else e :: dropValues true rest
    else e :: dropValues seen rest

/-- leaves out all values before the last expression -/
def dropAllValues : List Node → List Node
  | [] => []
  | [e] => [e]
  | e :: rest => if e.has Form.isValue then dropAllValues rest else e :: dropAllValues rest

/-- a sequence without inner sequences and values in excess -/
def flatSequence (es : List Node) : Node :=
  let kept := dropValues false (es.flatMap sequenceItems)
  match if kept.length > 2 then dropAllValues kept else kept with
  | [e] => e
  | es => .plain .sequence es

/-! ## Parts of a form -/

/-- what a member access or a call applies to -/
def head (e : Node) : Node :=
  match e with
  | .plain .paren _ => e
  | _ => e.wrapIf Form.isNoHead

/-- what a member access by name applies to; an integer takes a point so that the next one is not read as its own -/
def memberHead (e : Node) : Node :=
  match e with
  | .plain (.literal written) [] =>
    if written.all Char.isDigit then .plain (.literal (written ++ ['.'])) [] else e
  | _ => (head e).wrapIf Form.isFunction

/-- a part that a comma would end -/
def single (e : Node) : Node := e.bare.wrapIf Form.isSequence

/-- the callee of a construction -/
def constructHead (e : Node) : Node :=
  let e := head e
  if e.hasCall then e.wrapped else e

/-- an expression that is a whole statement -/
def statementHead (e : Node) : Node :=
  match e with
  | .plain (.assign _) (.plain .objectPattern _ :: _) => e.wrapped
  | _ => e.guardStart Form.isStatementStart

/-- the body of an arrow function -/
def arrowBody (e : Node) : Node :=
  match e with
  | .plain (.block _) _ => e
  | _ =>
    (e.guardStart fun
      | .object => true
      | _ => false).wrapIf Form.isSequence

/-- the default export of a module -/
def exportHead (e : Node) : Node :=
  if e.has fun form => form.isSequence || (match form with | .arrow _ => true | _ => false) then e.wrapped
  else e.guardStart fun form => form.isStatementStart && form ≠ .object

/-- puts parentheses around the parts of a form, which have their own already -/
def placeParts (form : Form) (parts : List Node) : Node :=
  let bare := parts.map Node.bare
  match form, parts with
  | .paren, [e] => if e.bare.isOptionalChain then e.bare.wrapped else e.bare
  | .sequence, _ => flatSequence bare
  | .conditional, [test, yes, no] =>
    .plain form [test.bare.wrapIf Form.isLoose, single yes, single no]
  | .unary _, [e] => .plain form [e.bare.wrapIf wrapsUnary]
  | .typeAssertion, [type, e] => .plain form [type, e.bare.wrapIf wrapsUnary]
  | .binary op, [left, right] =>
    .plain form [left.bare.wrapIf (wrapsLeft op), right.bare.wrapIf (wrapsRight op)]
  | .typed _, [e, type] => .plain form [e.bare.wrapIf wrapsTyped, type]
  | .nonNull, [e] => .plain form [head e]
  | .assign _, [target, value] => .plain form [target.bare, single value]
  | .member _ _, [e] => .plain form [memberHead e]
  | .index _, [e, key] => .plain form [(head e).wrapIf Form.isFunction, key.bare]
  | .call _, e :: types :: arguments => .plain form (head e :: types :: arguments.map single)
  | .construct _, e :: types :: arguments => .plain form (constructHead e :: types :: arguments.map single)
  | .tagged, [e, t] => .plain form [head e, t]
  | .array, _ => .plain form (parts.map single)
  | .property, [key, value] => .plain form [key, single value]
  | .field _, [key, type, value] => .plain form [key, type, single value]
  | .spread, _ => .plain form (parts.map single)
  | .spreadChild, _ => .plain form (parts.map single)
  | .template _, _ => .plain form (parts.map single)
  | .container, _ => .plain form (parts.map single)
  | .withDefault, [target, value] => .plain form [target, single value]
  | .declarator, [target, value] => .plain form [target, single value]
  | .arrow _, [bounds, inputs, result, body] => .plain form [bounds, inputs, result, arrowBody body.bare]
  | .forOf, [target, values, body] => .plain form [target.bare, single values, body]
  | .classBody _, [members, parent] => .plain form [members, parent.bare.wrapIf Form.isLoose]
  | .expressionStatement, [e] => .plain form [statementHead e.bare]
  | .exportDefault, [.plain .expressionStatement [e]] =>
    .plain form [.plain .expressionStatement [exportHead e.bare]]
  | _, _ => .plain form bare

/-! ## Whole trees -/

mutual

/-- the tree with the parentheses that it needs -/
def Node.canonical : Node → Node
  | .plain form parts => placeParts form (Node.canonicalAll parts)
  | .element tag types attributes closed children =>
    .element tag (Node.canonicalAll types) (Attribute.canonicalAll attributes) closed (Node.canonicalAll children)

/-- trees with the parentheses that they need -/
def Node.canonicalAll : List Node → List Node
  | [] => []
  | e :: rest => e.canonical :: Node.canonicalAll rest

/-- an attribute with the parentheses that it needs -/
def Attribute.canonical : Attribute → Attribute
  | .spread e => .spread (single e.canonical)
  | .named name value => .named name value.canonical

/-- attributes with the parentheses that they need -/
def Attribute.canonicalAll : List Attribute → List Attribute
  | [] => []
  | a :: rest => a.canonical :: Attribute.canonicalAll rest

/-- a value with the parentheses that it needs -/
def Value.canonical : Value → Value
  | .missing => .missing
  | .quoted written => .quoted written
  | .braced e source => .braced (single e.canonical) source
  | .markup e source => .markup e.canonical source

end

end TerseStyle.Script

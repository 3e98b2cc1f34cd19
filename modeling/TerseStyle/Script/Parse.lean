/-
Reading a whole script, and reading an expression in front of a text.
-/
import TerseStyle.Script.Markup
import TerseStyle.Script.Statement

namespace TerseStyle.Script

namespace Grammar

/-- the grammar whose inner readers are those of another one -/
def above (g : Grammar) : Grammar where
  expression := Script.expression g
  assignment := Script.assignment g
  unary := Script.unary g
  operand := Script.operand g
  pattern := bindingPattern g
  target := targetPattern g
  type := typeSyntax g
  markup := markupSyntax g
  statement := statementSyntax g

/-- the grammar for constructs nested up to some depth -/
def upTo : (depth : Nat) → Grammar
  | 0 => exhausted
  | depth + 1 => above (upTo depth)

/-- the grammar for a text. Readers that refer to the record have taken a character before, apart from a few that start
with another one, so that a text nests no deeper. -/
def ofText (t : Text) : Grammar := upTo (t.length + 8)

end Grammar

/-! ## Scripts -/

/-- puts comments behind the last statement -/
def commentLast (comments : List Comment) : List Node → List Node
  | [] => []
  | [node] =>
    match node with
    | .plain (.commented before after) [inner] => [.plain (.commented before (after ++ comments)) [inner]]
    | _ => [surround [] comments node]
  | node :: rest => node :: commentLast comments rest

/-- the statements of a script -/
def script (g : Grammar) : Reader Node := do
  let body ← Reader.collect do
    if (← get).token = .ended then return none else return some (← g.statement)
  let closing ← Reader.takeComments
  return .plain .script (commentLast closing body)

/-- reads a whole script, or gives the position in the text at which that fails; a byte order mark does not count -/
def parse (dialect : Dialect) (source : Text) : Except Nat Node :=
  let t := dropMark source
  (script (.ofText t) { dialect } (.read 0 t)).map Prod.fst

/-- reads an expression in front of a text, without its comments; also the text behind it -/
def parseExpression (dialect : Dialect) (code : Text) : Except Nat (Node × Text) :=
  (expression (.ofText code) { dialect, keepsComments := false } (.read 0 code)).map fun (e, c) => (e, c.after)

end TerseStyle.Script

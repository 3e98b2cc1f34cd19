/-
Binary operators and their precedence. `group` makes a tree of a flat chain of operands: an operator that binds
tighter takes the operand between, and of two that bind alike the left one does, except for powers.
-/
import TerseStyle.Script.Tree

namespace TerseStyle.Script

/-- operators whose right operand is a type -/
def typeOperators : List Text := ["as", "satisfies"].map String.toList

/-- operators by how tightly they bind -/
def precedenceTable : List (Nat × List String) :=
  [(1, ["??", "||"]), (2, ["&&"]), (3, ["|"]), (4, ["^"]), (5, ["&"]), (6, ["==", "!=", "===", "!=="]),
    (7, ["<", ">", "<=", ">=", "in", "instanceof", "as", "satisfies"]), (8, ["<<", ">>", ">>>"]), (9, ["+", "-"]),
    (10, ["*", "/", "%"]), (11, ["**"])]

/-- how tightly a binary operator binds -/
def precedence? (op : Text) : Option Nat :=
  (precedenceTable.find? fun entry => entry.2.any (·.toList = op)).map Prod.fst

/-- how tightly an operator binds, nothing binding less than one -/
def precedence (op : Text) : Nat := (precedence? op).getD 0

/-- powers are grouped from the right -/
def isRightGrouped (op : Text) : Bool := op = ['*', '*']

/-- an operation; the right operand of a type operator is a type -/
def operation (left : Node) (op : Text) (right : Node) : Node :=
  if typeOperators.contains op then .plain (.typed op) [left, right] else .plain (.binary op) [left, right]

/-- finishes the pending operations that bind more tightly than `op`, or alike from the left -/
def finishTighter (op : Text) : (pending : List (Node × Text)) → Node → List (Node × Text) × Node
  | [], e => ([], e)
  | (left, waiting) :: rest, e =>
    if precedence op < precedence waiting || (precedence op = precedence waiting && !isRightGrouped op) then
      finishTighter op rest (operation left waiting e)
    else ((left, waiting) :: rest, e)

/-- finishes all pending operations -/
def finishAll : (pending : List (Node × Text)) → Node → Node
  | [], e => e
  | (left, op) :: rest, e => finishAll rest (operation left op e)

/-- groups an operand and the operations behind it; the innermost pending operation comes first -/
def group (pending : List (Node × Text)) (e : Node) : List (Text × Node) → Node
  | [] => finishAll pending e
  | (op, right) :: rest =>
    let (pending, left) := finishTighter op pending e
    group ((left, op) :: pending) right rest

end TerseStyle.Script

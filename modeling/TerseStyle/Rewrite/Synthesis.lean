/-
The attributes that a rewrite makes: a class template of segments, and a style object of entries.
-/
import TerseStyle.Rewrite.Attribute
import TerseStyle.Rewrite.StyleKey

namespace TerseStyle.Rewrite

open Script

/-! ## Literals -/

/-- a string with this value -/
def stringLiteral (value : Text) : Node := .plain (.string value) []

/-- a class name that is present when the test is truthy -/
def conditionalClass (test : Node) (name : Text) : Node :=
  .plain .conditional [test, stringLiteral name, stringLiteral []]

/-! ## Class templates -/

/-- a part of a class template -/
inductive Segment where
  /-- class names -/
  | text (t : Text)
  /-- an expression that gives class names -/
  | expression (e : Node)

/-- a piece of a template literal: its text, how it is written, and whether no expression follows -/
structure TemplatePiece where
  text : Text
  written : Text
  isLast : Bool
  deriving DecidableEq, Repr

/-- the piece of a text -/
def TemplatePiece.of (t : Text) (isLast : Bool) : TemplatePiece := ⟨t, escapeTemplate t, isLast⟩

/-- texts with expressions between them -/
structure Interleaved where
  first : Text
  rest : List (Node × Text)

namespace Interleaved

/-- puts text in front -/
def addText (t : Text) (i : Interleaved) : Interleaved := { i with first := t ++ i.first }

/-- puts an expression in front -/
def addExpression (e : Node) (i : Interleaved) : Interleaved := ⟨[], (e, i.first) :: i.rest⟩

/-- puts a segment in front -/
def add (s : Segment) (i : Interleaved) : Interleaved :=
  match s with
  | .text t => i.addText t
  | .expression e => i.addExpression e

/-- segments with a space between each two -/
def ofSegments : List Segment → Interleaved
  | [] => ⟨[], []⟩
  | [s] => add s ⟨[], []⟩
  | s :: rest => add s (addText [' '] (ofSegments rest))

/-- the pieces of a text and of those behind expressions -/
def piecesFrom (t : Text) : List (Node × Text) → List TemplatePiece
  | [] => [.of t true]
  | (_, next) :: rest => .of t false :: piecesFrom next rest

/-- the pieces of the texts -/
def pieces (i : Interleaved) : List TemplatePiece := piecesFrom i.first i.rest

/-- the template literal of texts and expressions -/
def template (i : Interleaved) : Node := .plain (.template (i.pieces.map (·.written))) (i.rest.map Prod.fst)

end Interleaved

/-- the template literal of segments, joined by spaces -/
def classTemplate (segments : List Segment) : Node := (Interleaved.ofSegments segments).template

/-! ## Style objects -/

/-- the key of a style object -/
def styleKey (name : Text) : Node :=
  if isPlainIdentifier name then .plain (.word name) [] else stringLiteral name

/-- an object of style entries, which takes over another one first -/
def styleObject (base : Option Node) (entries : List (Text × Node)) : Node :=
  .plain .object
    ((base.map fun e => Node.plain .spread [e]).toList ++
      entries.map fun p => Node.plain .property [styleKey p.1, p.2])

/-! ## Attributes -/

/-- an attribute whose value is an expression; it was not written anywhere -/
def expressionAttribute (name : Text) (e : Node) : Attribute := .named name (.braced e [])

end TerseStyle.Rewrite

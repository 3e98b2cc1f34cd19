/-
The attributes that a rewrite looks at: names, markers, and what the value of an attribute gives.
-/
import TerseStyle.Script.Tree
import TerseStyle.Script.Literal

namespace TerseStyle.Rewrite

open Script

/-- the name of the attribute that holds classes -/
def className : Text := "class".toList

/-- the name of the attribute that holds the inline style -/
def styleName : Text := "style".toList

/-- what every marker starts with -/
def classMarker : Text := "$".toList

/-- what the markers of style properties start with -/
def styleMarker : Text := "$$".toList

/-! ## Names -/

/-- whether an attribute has a name -/
def isNamed (name : Text) (a : Attribute) : Bool := a.name? = some name

/-- whether an attribute is a marker -/
def isMarker (a : Attribute) : Bool := a.name?.any classMarker.isPrefixOf

/-- whether there are markers among attributes -/
def hasMarkers (attributes : List Attribute) : Bool := attributes.any isMarker

/-- takes the first attribute of a name out of a list -/
def takeFirst (name : Text) : List Attribute → Option Attribute × List Attribute
  | [] => (none, [])
  | a :: rest =>
    if isNamed name a then (some a, rest)
    else
      let (found, rest) := takeFirst name rest
      (found, a :: rest)

/-- takes the last attribute of a name out of a list -/
def takeLast (name : Text) : List Attribute → Option Attribute × List Attribute
  | [] => (none, [])
  | a :: rest =>
    match takeLast name rest with
    | (some found, rest) => (some found, a :: rest)
    | (none, rest) => if isNamed name a then (some a, rest) else (none, a :: rest)

/-! ## Values -/

/-- what the value of an attribute gives -/
inductive Given where
  | nothing
  | expression (e : Node)
  /-- the text between quotes, as it was written -/
  | text (t : Text)

/-- the text between the quotes around it -/
def unquoted (written : Text) : Text := written.tail.dropLast

/-- what a value gives -/
def given : Value → Given
  | .missing => .nothing
  | .quoted written => .text (unquoted written)
  | .braced e _ => .expression e
  | .markup e _ => .expression e

/-- the text that a value was written as, without braces -/
def writtenSource? : Value → Option Text
  | .missing => none
  | .quoted written => some written
  | .braced _ source => some source
  | .markup _ source => some source

/-- the text that an expression was written as, if the value is one -/
def expressionSource? : Value → Option Text
  | .braced _ source => some source
  | .markup _ source => some source
  | _ => none

end TerseStyle.Rewrite

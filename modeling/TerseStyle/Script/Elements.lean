/-
The elements of a script, in the order of its parts: an element, then those in its attributes, then those among its
children.
-/
import TerseStyle.Script.Tree

namespace TerseStyle.Script

/-- an element's name and attributes -/
structure Opening where
  tag : TagName
  attributes : List Attribute

mutual

/-- the elements of a tree -/
def Node.openings : Node → List Opening
  | .plain _ parts => Node.openingsAll parts
  | .element tag _ attributes _ children =>
    ⟨tag, attributes⟩ :: (Attribute.openingsAll attributes ++ Node.openingsAll children)

/-- the elements of trees -/
def Node.openingsAll : List Node → List Opening
  | [] => []
  | e :: rest => e.openings ++ Node.openingsAll rest

/-- the elements in an attribute -/
def Attribute.openings : Attribute → List Opening
  | .spread e => e.openings
  | .named _ value => value.openings

/-- the elements in attributes -/
def Attribute.openingsAll : List Attribute → List Opening
  | [] => []
  | a :: rest => a.openings ++ Attribute.openingsAll rest

/-- the elements in a value -/
def Value.openings : Value → List Opening
  | .missing => []
  | .quoted _ => []
  | .braced e _ => e.openings
  | .markup e _ => e.openings

end

end TerseStyle.Script

/-
Markers. An attribute whose name starts with one dollar sign is a class, present always or under the condition that is its
value; one with two is a style property. They are taken out of the attributes, and with them the last class or style
attribute that was there, which becomes part of the new one at the end.
-/
import TerseStyle.Rewrite.Fault
import TerseStyle.Rewrite.Synthesis

namespace TerseStyle.Rewrite

open Script

/-! ## What markers ask for -/

/-- the property of a style marker -/
def styleProperty? (name : Text) : Option Text := styleMarker.isPrefixOf? name

/-- the class name of a class marker -/
def markedClass? (name : Text) : Option Text :=
  if styleMarker.isPrefixOf name then none else classMarker.isPrefixOf? name

/-- the expression that a marker's value stands for -/
def markerExpression? (v : Value) : Option Node :=
  match given v with
  | .nothing => none
  | .expression e => some e
  | .text t => some (stringLiteral t)

/-- the class segments of the class markers, in order -/
def classSegments (attributes : List Attribute) : List Segment :=
  attributes.filterMap fun a =>
    (a.name?.bind markedClass?).map fun name =>
      match markerExpression? a.value with
      | none => .text name
      | some test => .expression (conditionalClass test name)

/-- the entry of a style marker, if the attribute is one -/
def styleEntry? (a : Attribute) : Except RewriteError (Option (Text × Node)) :=
  match a.name? with
  | none => .ok none
  | some name =>
    match styleProperty? name with
    | none => .ok none
    | some property =>
      match markerExpression? a.value with
      | none => .error (.missingStyleValue name)
      | some e => .ok (some (hyphenate property, e))

/-- the entries of the style markers, in order -/
def styleEntries : List Attribute → Except RewriteError (List (Text × Node))
  | [] => .ok []
  | a :: rest => do
    let entry ← styleEntry? a
    let entries ← styleEntries rest
    return entry.toList ++ entries

/-! ## Merging -/

/-- the segment of a class attribute that was there before -/
def existingSegments (a : Option Attribute) : List Segment :=
  match a.map fun a => given a.value with
  | some (.expression e) => [.expression e]
  | some (.text t) => if Text.isBlankOnly t then [] else [.text (Text.trim t)]
  | _ => []

/-- the object of a style attribute that was there before -/
def existingStyle (element : Text) (a : Option Attribute) : Except RewriteError (Option Node) :=
  match a.map fun a => given a.value with
  | some (.expression e) => .ok (some e)
  | some (.text _) => .error (.mixedStyle element)
  | _ => .ok none

/-- the class attribute of some segments, and the other attributes -/
def mergeClass (segments : List Segment) (attributes : List Attribute) : List Attribute × List Attribute :=
  if segments.isEmpty then (attributes, [])
  else
    let (existing, others) := takeLast className attributes
    (others, [expressionAttribute className (classTemplate (existingSegments existing ++ segments))])

/-- the style attribute of some entries, and the other attributes -/
def mergeStyle (element : Text) (entries : List (Text × Node)) (attributes : List Attribute) :
    Except RewriteError (List Attribute × List Attribute) :=
  if entries.isEmpty then .ok (attributes, [])
  else do
    let (existing, others) := takeLast styleName attributes
    let base ← existingStyle element existing
    return (others, [expressionAttribute styleName (styleObject base entries)])

/-- rewrites the markers of an element, if there are any -/
def rewriteMarkers (element : Text) (attributes : List Attribute) :
    Except RewriteError (Option (List Attribute)) :=
  if !hasMarkers attributes then .ok none
  else do
    let entries ← styleEntries attributes
    let (others, classes) := mergeClass (classSegments attributes) (attributes.filter fun a => !isMarker a)
    let (others, styles) ← mergeStyle element entries others
    return some (others ++ classes ++ styles)

end TerseStyle.Rewrite

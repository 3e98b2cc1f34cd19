/-
Reading markup: elements with their attributes and children, and fragments. The text between tags is taken as it
stands; the name of a closing tag must be that of the opening one.
-/
import TerseStyle.Script.TypeSyntax

namespace TerseStyle.Script

open Reader

/-! ## Names -/

/-- characters that a name in markup may go on with -/
def isMarkupNamePart (c : Char) : Bool := isIdentifierPart c || c = '-'

/-- a name in markup, which may hold hyphens -/
def markupName : Reader Text := do
  match (← get).rest with
  | c :: rest =>
    if isIdentifierStart c then
      let t := c :: rest.takeWhile isMarkupNamePart
      advance t.length
      return t
    else fail
  | [] => fail

/-- what follows the first name of a tag: member accesses, or a namespace's member -/
def tagSuffix : Reader (List Text) := do
  if ← eatMark ":" then return [':' :: (← markupName)]
  collect do
    if ← eatMark "." then return some ('.' :: (← markupName)) else return none

/-- the name of a tag, with its spelling free of blanks -/
def tagName : Reader (TagName × Text) := do
  let start ← get
  let first ← markupName
  match ← tagSuffix with
  | [] => return (.plain first, first)
  | more =>
    let written := start.rest.take ((← get).lastEnd - start.offset)
    return (.compound written, first ++ more.flatten)

/-- the name of an attribute -/
def attributeName : Reader Text := do
  let first ← markupName
  if ← eatMark ":" then return first ++ ':' :: (← markupName) else return first

/-! ## Attributes -/

/-- something with the text that it was written as -/
def withSource (p : Reader Node) : Reader (Node × Text) := do
  let start ← get
  let e ← p
  return (e, start.rest.take ((← get).lastEnd - start.offset))

/-- a quoted text, which may go over several lines; one that is not closed takes the rest of the script, where the tag
then has no end -/
def quotedText (quote : Char) : Reader Text := do
  let body := (← get).rest.drop 1
  let inner := body.takeWhile (· ≠ quote)
  if inner.length = body.length then failAt ((← get).offset + 1 + inner.length)
  advance (inner.length + 2)
  return quote :: inner ++ [quote]

/-- the value of an attribute behind the equals sign -/
def attributeValue (g : Grammar) : Reader Value := do
  let start ← get
  match start.next? with
  | some '"' => return .quoted (← quotedText '"')
  | some '\'' => return .quoted (← quotedText '\'')
  | some '<' =>
    let (e, source) ← withSource g.markup
    return .markup e source
  | _ =>
    expectMark "\x7b"
    if ← atMark "\x7d" then failAt start.offset
    let (e, source) ← withSource (afresh g.expression)
    expectMark "\x7d"
    return .braced e source

/-- an attribute, if there is one before the end of the tag -/
def attribute? (g : Grammar) : Reader (Option Attribute) := do
  if (← atChar '>') || (← atChar '/') then return none
  if ← eatMark "\x7b" then
    expectMark "..."
    let e ← afresh g.assignment
    expectMark "\x7d"
    return some (.spread e)
  let name ← attributeName
  if ← eatChar '=' then return some (.named name (← attributeValue g)) else return some (.named name .missing)

/-! ## Children -/

/-- what stands between the braces of a child, the opening one being read -/
def containerChild (g : Grammar) : Reader Node := do
  if ← atMark "\x7d" then return .plain (.emptyContainer (← takeComments)) []
  if ← eatMark "..." then return .plain .spreadChild [← afresh g.expression]
  return .plain .container [← afresh g.expression]

/-- whether a closing tag comes next -/
def atClosingTag : Reader Bool := do
  return (← peek do expectChar '<'; expectChar '/').isSome

/-- children up to a closing tag, in the bare text behind the last token -/
def childrenUpTo (g : Grammar) : (bound : Nat) → Reader (List Node)
  | 0 => fail
  | bound + 1 => do
    let c ← get
    let text := c.after.takeWhile fun x => x ≠ '<' && x ≠ '{'
    if text.length = c.after.length then failAt (c.lastEnd + text.length)
    set (c.skipBare text.length)
    let before := if text.isEmpty then [] else [Node.plain (.markupText text) []]
    if ← atClosingTag then return before
    let child ←
      if ← eatMark "\x7b" then
        let e ← containerChild g
        expectMark "\x7d"
        pure e
      else g.markup
    return before ++ child :: (← childrenUpTo g bound)

/-- children up to a closing tag -/
def children (g : Grammar) : Reader (List Node) := do childrenUpTo g (← loopBound)

/-! ## Elements -/

/-- an element or a fragment -/
def markupSyntax (g : Grammar) : Reader Node := do
  expectChar '<'
  if ← eatChar '>' then
    let parts ← children g
    expectChar '<'
    expectChar '/'
    expectChar '>'
    return .plain .fragment parts
  let (tag, name) ← tagName
  let types ← if (← read).dialect.hasTypes && (← atChar '<') then do
      let types ← afresh (angled g.type)
      pure [Node.plain .typeArguments types]
    else pure []
  let attributes ← collect (attribute? g)
  if ← eatChar '/' then
    expectChar '>'
    return .element tag types attributes false []
  expectChar '>'
  let parts ← children g
  expectChar '<'
  expectChar '/'
  let closing := (← get).faultPosition
  if ← atChar '>' then failAt closing
  let (_, closingName) ← tagName
  unless closingName = name do failAt closing
  expectChar '>'
  return .element tag types attributes true parts

end TerseStyle.Script

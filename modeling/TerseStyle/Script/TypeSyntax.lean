/-
Reading types: named types with arguments, arrays, tuples, unions, intersections, function types and type literals.
-/
import TerseStyle.Script.Pattern

namespace TerseStyle.Script

open Reader

/-! ## Angle brackets -/

/-- items before a closing angle bracket, which may be the start of a longer punctuator -/
def angledUpTo {α : Type} (item : Reader α) : (bound : Nat) → Reader (List α)
  | 0 => fail
  | bound + 1 => do
    if ← eatChar '>' then return []
    let a ← item
    if ← eatMark "," then return a :: (← angledUpTo item bound)
    expectChar '>'
    return [a]

/-- items in angle brackets -/
def angled {α : Type} (item : Reader α) : Reader (List α) := do
  expectMark "<"
  angledUpTo item (← loopBound)

/-- type arguments -/
def typeArguments (g : Grammar) : Reader Node := do
  return .plain .typeArguments (← afresh (angled g.type))

/-- type arguments, if there are any -/
def optionalTypeArguments (g : Grammar) : Reader Node := do
  if ← atMark "<" then typeArguments g else return .absent

/-- a type parameter with its constraint and default -/
def typeParameter (g : Grammar) : Reader Node := do
  let name ← identifier
  let bound ← if ← eatWord "extends" then g.type else pure .absent
  return .plain (.typeParameter name) [bound, ← behind "=" g.type]

/-- type parameters, if there are any -/
def typeParameters (g : Grammar) : Reader Node := do
  if (← read).dialect.hasTypes && (← atMark "<") then
    return .plain .typeParameters (← angled (typeParameter g))
  else return .absent

/-! ## Simple types -/

/-- reserved words that are types -/
def typeWords : List Text := ["void", "null", "this", "true", "false"].map String.toList

/-- a name with dots, as a type -/
def typeName (g : Grammar) : Reader Node := do
  let first ← match (← get).token with
    | .word t => if reservedWords.contains t && !typeWords.contains t then fail else skip; pure t
    | _ => fail
  let more ← collect do
    if ← eatMark "." then return some ('.' :: (← anyWord)) else return none
  return .plain (.typeName (first ++ more.flatten)) [← optionalTypeArguments g]

/-- the end of a member of a type literal -/
def memberEnd : Reader Unit := do
  if ← eatMark ";" then return
  if ← eatMark "," then return
  unless (← get).lineBreak || (← atMark "\x7d") do fail

/-- the key of a type literal's member; an index in brackets has a type of its own -/
def memberKey (g : Grammar) : Reader Node := do
  let index : Reader Node := do
    expectMark "["
    let name ← identifier
    expectMark ":"
    let type ← g.type
    expectMark "]"
    return .plain .computedKey [.plain (.annotated false) [.plain (.word name) [], type]]
  match ← attempt index with
  | some k => return k
  | none => key g

/-- a member of a type literal -/
def typeMember (g : Grammar) : Reader Node := do
  let words ← modifiers ["readonly"]
  let k ← memberKey g
  let optional ← eatMark "?"
  let member ←
    if (← atMark "(") || (← atMark "<") then
      let signature := Node.plain .signature [← typeParameters g, ← parameters g, ← behind ":" g.type]
      pure (Node.plain (.methodType optional) [k, signature])
    else pure (.plain (.typeMember (words.headD []) optional) [k, ← behind ":" g.type])
  memberEnd
  return member

/-- the members of a type literal -/
def typeMembers (g : Grammar) : Reader (List Node) := do
  let members ← collect do
    if ← atMark "\x7d" then return none else return some (← typeMember g)
  expectMark "\x7d"
  return members

/-- a type without postfix brackets -/
def simpleType (g : Grammar) : Reader Node := do
  match (← get).token with
  | .string t => skip; return .plain (.literal t) []
  | .number t => skip; return .plain (.literal t) []
  | .word _ =>
    if ← eatWord "typeof" then return .plain (.typeOperator "typeof".toList) [← typeName g]
    typeName g
  | _ =>
    if ← eatMark "-" then
      match (← get).token with
      | .number t => skip; return .plain (.literal ('-' :: t)) []
      | _ => fail
    if ← eatMark "(" then
      let t ← g.type
      expectMark ")"
      return .plain .parenType [t]
    if ← eatMark "[" then return .plain .tupleType (← items "]" g.type)
    expectMark "\x7b"
    return .plain .typeLiteral (← typeMembers g)

/-! ## Compound types -/

/-- a type with postfix brackets -/
def bracketedType (g : Grammar) : Reader Node := do
  extendAll (fun type => do
    if (← get).lineBreak then return none
    if ← eatMark "[" then
      if ← eatMark "]" then return some (.plain .arrayType [type])
      let index ← g.type
      expectMark "]"
      return some (.plain .indexedType [type, index])
    else return none) (← simpleType g)

/-- a type under an operator word -/
def operatorType (g : Grammar) : Reader Node := do
  let words ← collect do
    match (← get).token with
    | .word t =>
      if ["keyof", "unique", "readonly"].any (·.toList = t) then
        attempt do
          skip
          match (← get).token with
          | .word _ => return t
          | .punctuator mark => if mark = ['['] || mark = ['('] || mark = ['{'] then return t else fail
          | _ => fail
      else return none
    | _ => return none
  return words.foldr (fun op type => .plain (.typeOperator op) [type]) (← bracketedType g)

/-- one or more types with a punctuator between each two and possibly in front -/
def joinedTypes (mark : String) (form : Form) (item : Reader Node) : Reader Node := do
  let _ ← eatMark mark
  match ← separated mark item with
  | [type] => return type
  | types => return .plain form types

/-- a union of types -/
def unionType (g : Grammar) : Reader Node :=
  joinedTypes "|" .unionType (joinedTypes "&" .intersectionType (operatorType g))

/-- a function type -/
def functionType (g : Grammar) : Reader Node := do
  let bounds ← typeParameters g
  let inputs ← parameters g
  expectMark "=>"
  return .plain .functionType [bounds, inputs, ← g.type]

/-- a type -/
def typeSyntax (g : Grammar) : Reader Node := do
  if (← atMark "(") || (← atMark "<") then
    match ← attempt (functionType g) with
    | some type => return type
    | none => unionType g
  else unionType g

end TerseStyle.Script

/-
Reading keys, patterns and parameters.
-/
import TerseStyle.Script.Grammar

namespace TerseStyle.Script

open Reader

/-- an optional part behind a punctuator -/
def behind (mark : String) (p : Reader Node) : Reader Node := do
  if ← eatMark mark then p else return .absent

/-- the type behind a colon, where the dialect has types -/
def annotation (g : Grammar) : Reader Node := do
  if (← read).dialect.hasTypes then behind ":" g.type else return .absent

/-! ## Keys -/

/-- the key of a property, a member or a method -/
def key (g : Grammar) : Reader Node := do
  match (← get).token with
  | .word t => skip; return .plain (.word t) []
  | .string t => skip; return .plain (.literal t) []
  | .number t => skip; return .plain (.literal t) []
  | _ =>
    expectMark "["
    let e ← afresh g.assignment
    expectMark "]"
    return .plain .computedKey [e]

/-- whether a key can start with the next token -/
def atKey : Reader Bool := do
  match (← get).token with
  | .word _ | .string _ | .number _ => return true
  | .punctuator mark => return mark = ['['] || mark = ['*']
  | _ => return false

/-- the words in front of a key, and a star -/
def modifiers (allowed : List String) : Reader (List Text) := do
  let words ← collect do
    match (← get).token with
    | .word t =>
      if allowed.any (·.toList = t) then
        attempt do
          skip
          if ← atKey then return t else fail
      else return none
    | _ => return none
  if ← eatMark "*" then return words ++ [['*']] else return words

/-! ## Patterns -/

/-- a pattern with a default value, if one is given -/
def withDefault (g : Grammar) (p : Reader Node) : Reader Node := do
  let target ← p
  if ← eatMark "=" then return .plain .withDefault [target, ← g.assignment] else return target

/-- an element of an array pattern -/
def patternElement (g : Grammar) (inner : Reader Node) : Reader Node := do
  if ← atMark "," then return .plain .hole []
  if ← eatMark "..." then return .plain .spread [← inner]
  withDefault g inner

/-- an entry of an object pattern -/
def patternEntry (g : Grammar) (inner : Reader Node) : Reader Node := do
  if ← eatMark "..." then return .plain .spread [← inner]
  match ← attempt (do let k ← key g; expectMark ":"; return k) with
  | some k => return .plain .property [k, ← withDefault g inner]
  | none => withDefault g do return .plain (.shorthand (← identifier)) []

/-- an array or object pattern of inner patterns, or what else a pattern may be -/
def patternOf (g : Grammar) (inner leaf : Reader Node) : Reader Node := do
  if ← eatMark "[" then return .plain .arrayPattern (← afresh (items "]" (patternElement g inner)))
  if ← eatMark "\x7b" then return .plain .objectPattern (← afresh (items "\x7d" (patternEntry g inner)))
  leaf

/-- a pattern of declared names -/
def bindingPattern (g : Grammar) : Reader Node :=
  patternOf g g.pattern do return .plain (.word (← identifier)) []

/-- a pattern of what is assigned to -/
def targetPattern (g : Grammar) : Reader Node := patternOf g g.target g.unary

/-! ## Parameters -/

/-- a pattern with its type -/
def annotated (g : Grammar) : Reader Node := do
  let p ← bindingPattern g
  let optional ← if (← read).dialect.hasTypes then eatMark "?" else pure false
  match ← annotation g with
  | .plain .absent _ => if optional then return .plain (.annotated true) [p, .absent] else return p
  | type => return .plain (.annotated optional) [p, type]

/-- one parameter -/
def parameter (g : Grammar) : Reader Node := do
  if ← eatMark "..." then return .plain .spread [← annotated g]
  withDefault g (annotated g)

/-- parameters in parentheses -/
def parameters (g : Grammar) : Reader Node := do
  expectMark "("
  return .plain .parameters (← afresh (items ")" (parameter g)))

end TerseStyle.Script

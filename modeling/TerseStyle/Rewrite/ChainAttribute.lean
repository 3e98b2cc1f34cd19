/-
Chain attributes. The text of a chain is compiled, and the attribute gives way to the classes and styles that the chain
stands for, at the end of the attributes. The first class attribute that was there is merged by a call.
-/
import TerseStyle.Chain.Compile
import TerseStyle.Rewrite.Fault
import TerseStyle.Rewrite.Synthesis
import TerseStyle.Script.Language

namespace TerseStyle.Rewrite

open Script

/-- what happened so far -/
structure Trace where
  /-- keys that were not found -/
  notices : List Chain.Notice := []
  /-- elements that were rewritten -/
  rewritten : Nat := 0

/-- a rewrite that may fail; what happened before is known even then -/
abbrev Rewriting := ExceptT RewriteError (StateM Trace)

/-- notes keys that were not found -/
def note (notices : List Chain.Notice) : Rewriting Unit :=
  modify fun t => { t with notices := t.notices ++ notices }

/-! ## Generated code -/

/-- reads a whole text as an expression -/
def readGenerated (language : Language) (code : Text) : Except RewriteError Node :=
  match language.expression code with
  | .error _ => .error (.unreadableCode code)
  | .ok (e, rest) => if Text.isBlankOnly rest then .ok e else .error (.leftover rest code)

/-- the class expression of a chain, merged with the class that was there before -/
def classCode (mergeFunction : Text) (existing : Option Text) (template : Text) : Text :=
  match existing with
  | some source => mergeFunction ++ '(' :: source ++ ", ".toList ++ template ++ [')']
  | none => template

/-! ## The attribute -/

/-- whether an attribute holds a chain -/
def isChain (settings : Settings) (a : Attribute) : Bool := a.name?.any settings.isChainAttribute

/-- takes the first attribute that holds a chain out of a list -/
def takeChain (settings : Settings) : List Attribute → List Attribute
  | [] => []
  | a :: rest => if isChain settings a then rest else a :: takeChain settings rest

/-- the name of an attribute for an error -/
def nameOf (a : Attribute) : Text := a.name?.getD []

/-- compiles the chain of an attribute -/
def compileAttribute (settings : Settings) (a : Attribute) : Rewriting Chain.Compiled :=
  match expressionSource? a.value with
  | none => throw (.invalidChainAttribute (nameOf a))
  | some source => do
    let compilation := Chain.compile settings source
    note compilation.notices
    match compilation.result with
    | .error e => throw (.chain e)
    | .ok compiled => return compiled

/-- the attributes that a compiled chain stands for, and the others without the class that was merged -/
def mergeCompiled (settings : Settings) (language : Language) (compiled : Chain.Compiled) (others : List Attribute) :
    Except RewriteError (List Attribute) := do
  let (existing, others) := takeFirst className others
  let source := existing.bind fun a => writtenSource? a.value
  let classes ← readGenerated language (classCode settings.mergeFunction source compiled.classTemplate)
  let styles ← match compiled.styleObject with
    | none => pure []
    | some code => do
      let e ← readGenerated language code
      pure [expressionAttribute styleName e]
  return others ++ expressionAttribute className classes :: styles

/-- rewrites the chain of an element, if there is one -/
def rewriteChain (settings : Settings) (language : Language) (element : Text) (attributes : List Attribute) :
    Rewriting (Option (List Attribute)) :=
  match attributes.filter (isChain settings) with
  | [] => return none
  | [a] => do
    if attributes.any (isNamed styleName) then throw (.mixedStyle element)
    let compiled ← compileAttribute settings a
    let attributes ← mergeCompiled settings language compiled (takeChain settings attributes)
    return some attributes
  | _ :: repeated :: _ => throw (.invalidChainAttribute (nameOf repeated))

end TerseStyle.Rewrite

/-
Rewriting a script. Every element is visited behind those in its attributes and before its children; only intrinsic ones
change. A script in which none does is left as it is, any other one is printed anew.
-/
import TerseStyle.Rewrite.ChainAttribute
import TerseStyle.Rewrite.Marker
import TerseStyle.Script.Trivia

namespace TerseStyle.Rewrite

open Script

/-! ## One element -/

/-- counts an element that was rewritten -/
def count : Rewriting Unit := modify fun t => { t with rewritten := t.rewritten + 1 }

/-- rewrites the attributes of an element: its chain first, then its markers -/
def rewriteAttributes (settings : Settings) (language : Language) (tag : TagName) (attributes : List Attribute) :
    Rewriting (List Attribute) := do
  if !tag.isIntrinsic then return attributes
  let chain ← rewriteChain settings language tag.text attributes
  let attributes := chain.getD attributes
  let markers ← rewriteMarkers tag.text attributes
  if chain.isSome || markers.isSome then count
  return markers.getD attributes

/-! ## All elements -/

mutual

/-- rewrites the elements of a tree -/
def rewriteNode (settings : Settings) (language : Language) : Node → Rewriting Node
  | .plain form parts => return .plain form (← rewriteNodes settings language parts)
  | .element tag types attributes closed children => do
    let attributes ← rewriteInside settings language attributes
    let attributes ← rewriteAttributes settings language tag attributes
    return .element tag types attributes closed (← rewriteNodes settings language children)

/-- rewrites the elements of trees -/
def rewriteNodes (settings : Settings) (language : Language) : List Node → Rewriting (List Node)
  | [] => return []
  | e :: rest => do
    let e ← rewriteNode settings language e
    return e :: (← rewriteNodes settings language rest)

/-- rewrites the elements inside attributes -/
def rewriteInside (settings : Settings) (language : Language) : List Attribute → Rewriting (List Attribute)
  | [] => return []
  | a :: rest => do
    let a ← rewriteInAttribute settings language a
    return a :: (← rewriteInside settings language rest)

/-- rewrites the elements inside an attribute -/
def rewriteInAttribute (settings : Settings) (language : Language) : Attribute → Rewriting Attribute
  | .spread e => return .spread (← rewriteNode settings language e)
  | .named name value => return .named name (← rewriteInValue settings language value)

/-- rewrites the elements inside a value; the text that it was written as stays -/
def rewriteInValue (settings : Settings) (language : Language) : Value → Rewriting Value
  | .missing => return .missing
  | .quoted written => return .quoted written
  | .braced e source => return .braced (← rewriteNode settings language e) source
  | .markup e source => return .markup (← rewriteNode settings language e) source

end

/-! ## A whole script -/

/-- the result of a rewrite, with the keys that were not found on the way -/
structure Report where
  notices : List Chain.Notice
  result : Except RewriteError Text

/-- rewrites a script that was read; also how many elements were rewritten -/
def rewriteTree (settings : Settings) (language : Language) (tree : Node) :
    Except RewriteError Node × Trace :=
  rewriteNode settings language tree |>.run.run {}

/-- rewrites a script in a language -/
def rewriteIn (language : Language) (settings : Settings) (file source : Text) : Report :=
  match language.script source with
  | .error offset => ⟨[], .error (.unreadable file (.ofOffset (dropMark source) offset))⟩
  | .ok tree =>
    match rewriteTree settings language tree with
    | (.error e, trace) => ⟨trace.notices, .error e⟩
    | (.ok tree, trace) => ⟨trace.notices, .ok (if trace.rewritten = 0 then source else language.print tree)⟩

/-- settings, and the language of each dialect of scripts -/
structure Rewriter where
  settings : Settings
  languages : Dialect → Language

/-- rewrites the script of a file in the dialect of its name -/
def Rewriter.rewrite (r : Rewriter) (file source : Text) : Report :=
  rewriteIn (r.languages (.ofFile file)) r.settings file source

end TerseStyle.Rewrite

/-
From candidates to utility classes. A candidate in the vocabulary gives its class, gated or not; one that is not gives
an arbitrary value class under a constant, a style property under a variable, and its own key, with a notice, under
nothing. The class fragments are joined to a template literal, the properties to an object literal.
-/
import TerseStyle.Vocabulary
import TerseStyle.Script.Literal
import TerseStyle.Chain.Interpreter

namespace TerseStyle.Chain

/-- put in front of every class of a responsive candidate -/
def responsivePrefix : Text := "sm:".toList

/-- a key that the vocabulary does not know, with the class fragment used instead -/
inductive Notice where
  /-- the key has no class -/
  | noClass (key fallback : Text)
  /-- the key has no property prefix -/
  | noPrefix (key fallback : Text)
  deriving DecidableEq, Repr

namespace Notice

/-- the key that was not found -/
def key : Notice → Text
  | noClass key _ => key
  | noPrefix key _ => key

/-- the fragment used instead -/
def fallback : Notice → Text
  | noClass _ fallback => fallback
  | noPrefix _ fallback => fallback

/-- the wording of a notice -/
def message (n : Notice) : Text :=
  let subject := match n with
    | noClass .. => "Missing lookup entry for '".toList
    | noPrefix .. => "Missing style key '".toList
  subject ++ n.key ++ "', using '".toList ++ n.fallback ++ ['\'']

end Notice

/-- what one candidate becomes -/
inductive Piece where
  /-- a fragment of the class template, with a notice when the key was not found -/
  | fragment (t : Text) (notice : Option Notice)
  /-- a property of the style object -/
  | property (name value : Text)
  deriving DecidableEq, Repr

namespace Piece

/-- the fragment, if it is one -/
def fragment? : Piece → Option Text
  | fragment t _ => some t
  | property .. => none

/-- the style entry, if it is one -/
def declaration? : Piece → Option Declaration
  | fragment .. => none
  | property name value => some (.property name value)

/-- the notice, if there is one -/
def notice? : Piece → Option Notice
  | fragment _ notice => notice
  | property .. => none

end Piece

/-! ## One candidate -/

namespace Candidate

/-- the prefix of the classes of a candidate -/
def variantPrefix (c : Candidate) : Text := if c.responsive then responsivePrefix else []

/-- a class that is present when the expression is truthy -/
def gated (expression className : Text) : Text :=
  "$\x7b(".toList ++ expression ++ ")?('".toList ++ Script.escapeSingleQuoted className ++ "'):''\x7d".toList

/-- an arbitrary value class -/
def arbitrary (c : Candidate) (stem value : Text) : Text :=
  c.variantPrefix ++ Script.escapeTemplate stem ++ "-[".toList ++ value ++ [']']

/-- a candidate that the vocabulary does not know, under an argument -/
def arbitraryValue (v : Vocabulary) (c : Candidate) (a : Argument) : Except CompileError Piece :=
  match a.kind with
  | .variable =>
    if c.responsive then .error (.responsiveVariable c.key) else .ok (.property c.key (Text.trim a.raw))
  | .constant =>
    let value := Script.escapeTemplate (['_'].intercalate (Text.words a.value))
    match v.prefixOf? c.key with
    | some stem => .ok (.fragment (c.arbitrary stem value) none)
    | none =>
      let fallback := c.arbitrary c.key value
      .ok (.fragment fallback (some (.noPrefix c.key fallback)))

/-- the argument that gates a candidate -/
def gateArgument (arguments : List Argument) (c : Candidate) (index : Nat) : Except CompileError Argument :=
  match arguments[index]? with
  | some a => .ok a
  | none => .error (.danglingGate c.key index)

/-- what a candidate becomes -/
def resolve (v : Vocabulary) (arguments : List Argument) (c : Candidate) : Except CompileError Piece :=
  match v.classOf? c.key, c.gate with
  | some className, .always => .ok (.fragment (Script.escapeTemplate (c.variantPrefix ++ className)) none)
  | some className, .argument index => do
    let a ← c.gateArgument arguments index
    return .fragment (gated (Text.trim a.raw) (c.variantPrefix ++ className)) none
  | none, .always =>
    if c.key = implicitKey && !c.responsive then .ok (.fragment implicitKey none)
    else
      let fallback := Script.escapeTemplate (c.variantPrefix ++ c.key)
      .ok (.fragment fallback (some (.noClass c.key fallback)))
  | none, .argument index => do
    let a ← c.gateArgument arguments index
    arbitraryValue v c a

end Candidate

/-! ## All candidates -/

/-- the script text that a chain stands for -/
structure Compiled where
  /-- a template literal, backticks included -/
  classTemplate : Text
  /-- an object literal, unless the chain has no styles -/
  styleObject : Option Text
  notices : List Notice
  deriving DecidableEq, Repr

/-- the pieces of the candidates up to the first that fails, and its error -/
def resolveAll (v : Vocabulary) (arguments : List Argument) : List Candidate → List Piece × Option CompileError
  | [] => ([], none)
  | c :: rest =>
    match c.resolve v arguments with
    | .error e => ([], some e)
    | .ok piece =>
      let (pieces, error) := resolveAll v arguments rest
      (piece :: pieces, error)

/-- the interpolation of an icon expression -/
def iconSuffix (expression : Text) : Text := " $\x7b".toList ++ expression ++ ['}']

/-- the template literal of class fragments, with the icon expressions behind them -/
def classTemplate (fragments icons : List Text) : Text :=
  '\x60' :: [' '].intercalate fragments ++ icons.flatMap iconSuffix ++ ['\x60']

/-- the written form of a style entry -/
def Declaration.written : Declaration → Text
  | .property name value => '\'' :: name ++ "': ".toList ++ value
  | .spread expression => "...(".toList ++ expression ++ [')']

/-- the object literal of style entries, if there are any -/
def styleObject? (declarations : List Declaration) : Option Text :=
  if declarations.isEmpty then none
  else some ('{' :: ", ".toList.intercalate (declarations.map (·.written)) ++ ['}'])

/-- a result together with the notices given before it was reached, which also precede an error -/
structure Compilation where
  notices : List Notice
  result : Except CompileError Compiled

/-- resolves the candidates of an outcome -/
def resolve (v : Vocabulary) (arguments : List Argument) (o : Outcome) (icons : List Text) : Compilation :=
  let (pieces, error) := resolveAll v arguments o.candidates
  let notices := pieces.filterMap (·.notice?)
  { notices
    result :=
      match error with
      | some e => .error e
      | none =>
        .ok {
          classTemplate := classTemplate (pieces.filterMap (·.fragment?)) icons
          styleObject := styleObject? (o.declarations ++ pieces.filterMap (·.declaration?))
          notices } }

end TerseStyle.Chain

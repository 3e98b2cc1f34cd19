/-
Printing a script. A layout is the text of a construct as a function of how far it is indented; the layout of a node is
made from the layouts of its parts. A part that was left out has the empty layout.
-/
import TerseStyle.Script.Literal
import TerseStyle.Script.Tree

namespace TerseStyle.Script

/-! ## Layouts -/

/-- the text of a construct at a depth of indentation, with its first character -/
structure Layout where
  first : Option Char
  render : (depth : Nat) → Text

/-- the text of a string -/
def str (s : String) : Text := s.toList

namespace Layout

/-- nothing -/
def empty : Layout := ⟨none, fun _ => []⟩

/-- the same text at every depth -/
def text (t : Text) : Layout := ⟨t.head?, fun _ => t⟩

/-- one layout after another -/
def append (a b : Layout) : Layout := ⟨a.first <|> b.first, fun depth => a.render depth ++ b.render depth⟩

instance : Append Layout := ⟨append⟩

instance : Coe String Layout := ⟨fun s => text s.toList⟩

/-- a line break with the start of the next line -/
def newLine : Layout := ⟨some '\n', fun depth => '\n' :: List.replicate (4 * depth) ' '⟩

/-- one level further in -/
def indented (a : Layout) : Layout := ⟨a.first, fun depth => a.render (depth + 1)⟩

/-- whether there is nothing -/
def isEmpty (a : Layout) : Bool := a.first.isNone

/-- whether it starts with a brace -/
def isBraced (a : Layout) : Bool := a.first = some '{'

/-- something, or nothing -/
def only (condition : Bool) (a : Layout) : Layout := if condition then a else empty

/-- something behind a text, unless there is nothing -/
def behind (before : String) (a : Layout) : Layout := only (!a.isEmpty) ((before : Layout) ++ a)

/-- a word with a space in front, unless it is empty -/
def spaced (t : Text) : Layout := behind " " (text t)

/-- layouts with another one between each two -/
def join (between : Layout) : List Layout → Layout
  | [] => empty
  | [a] => a
  | a :: rest => a ++ between ++ join between rest

/-- layouts one after another -/
def concat (parts : List Layout) : Layout := parts.foldr (· ++ ·) empty

/-- layouts between two brackets, each on a line of its own, with a text behind all but the last -/
def bracketed (opening between behindLast closing : String) (parts : List Layout) : Layout :=
  (opening : Layout) ++ indented (concat (parts.take 1 |>.map (newLine ++ ·)) ++
    concat (parts.drop 1 |>.map ((between : Layout) ++ newLine ++ ·))) ++ (behindLast : Layout) ++ newLine ++
    (closing : Layout)

end Layout

open Layout

/-! ## Comments -/

namespace Comment

/-- a comment before something -/
def before (c : Comment) : Layout :=
  if c.isBlock then text (str "/*" ++ c.body ++ str "*/ ") else text (str "//" ++ c.body) ++ newLine

/-- a comment behind something -/
def behind (c : Comment) : Layout :=
  text (if c.isBlock then str " /*" ++ c.body ++ str "*/ " else str " //" ++ c.body)

end Comment

/-- the statements of a block with the comments before its closing brace, which are not indented -/
def blockLayout (closing : List Comment) (parts : List Layout) : Layout :=
  if closing.isEmpty && parts.isEmpty then "\x7b\x7d"
  else
    "\x7b" ++ indented (concat (parts.map (newLine ++ ·))) ++ newLine ++ concat (closing.map Comment.before) ++ "\x7d"

/-! ## Pieces of constructs -/

/-- line breaks are line feeds -/
def lineFeeds : Text → Text
  | [] => []
  | '\r' :: '\n' :: rest => '\n' :: lineFeeds rest
  | c :: rest => (if c = '\r' then '\n' else c) :: lineFeeds rest

/-- the pieces of a template with expressions between them -/
def templateLayout : List Text → List Layout → Layout
  | piece :: pieces, e :: rest => text (lineFeeds piece) ++ "$\x7b" ++ e ++ "\x7d" ++ templateLayout pieces rest
  | pieces, _ => text (pieces.flatMap lineFeeds)

/-- words with a space behind each, a star without -/
def wordsLayout (words : List Text) : Layout :=
  text (words.flatMap fun w => if w = ['*'] then w else w ++ [' '])

/-- a unary operation; words and signs are kept apart from their operand where they would run into it -/
def unaryLayout (op : Text) (e : Layout) : Layout :=
  let isWord := op.any Char.isAlpha
  let clashes := (op = ['+'] || op = ['-']) && e.first = op.head?
  text op ++ only (isWord || clashes) " " ++ e

/-- the body of an arrow function; one that is no block is one level further in -/
def arrowBodyLayout (body : Layout) : Layout := if body.isBraced then body else indented body

/-- a class with its superclass and members -/
def classLayout (name : Text) (parent members : Layout) : Layout :=
  "class" ++ spaced name ++ behind " extends " parent ++ " " ++ members

/-- the branches of a conditional statement -/
def branches (yes no : Layout) : Layout :=
  yes ++ only (!no.isEmpty) ((if yes.isBraced then text [' '] else newLine) ++ "else " ++ no)

/-- what stands between `function` and the parameters -/
def functionHead (modifier star name : Text) : Layout :=
  text (if modifier.isEmpty then [] else modifier ++ [' ']) ++ "function" ++ text star ++ spaced name

/-- the dot of a member access -/
def dot (optional : Bool) : Layout := if optional then "?." else "."

/-! ## Expressions and patterns -/

/-- the layout of an expression or a pattern, if the form is one -/
def expressionLayout? : Form → List Layout → Option Layout
  | .word t, _ => some (text t)
  | .literal written, _ => some (text written)
  | .string value, _ => some (text (quoted value))
  | .template pieces, es => some ("\x60" ++ templateLayout pieces es ++ "\x60")
  | .tagged, [tag, t] => some (tag ++ t)
  | .array, [] => some "[]"
  | .array, es =>
    some (bracketed "[" "," (if es.getLast?.any Layout.isEmpty then "," else "") "]" es)
  | .object, [] => some "\x7b\x7d"
  | .object, es => some (bracketed "\x7b" "," "" "\x7d" es)
  | .property, [key, value] => some (key ++ ": " ++ value)
  | .computedKey, [e] => some ("[" ++ e ++ "]")
  | .shorthand name, _ => some (text name)
  | .spread, [e] => some ("..." ++ e)
  | .method words, [key, signature, body] => some (wordsLayout words ++ key ++ signature ++ " " ++ body)
  | .field words, [key, type, value] =>
    some (wordsLayout words ++ key ++ behind ": " type ++ behind " = " value ++ ";")
  | .signature, [bounds, inputs, result] => some (bounds ++ inputs ++ behind ": " result)
  | .parameters, inputs => some ("(" ++ join ", " inputs ++ ")")
  | .function modifier star name, [signature, body] =>
    some (functionHead modifier star name ++ signature ++ " " ++ body)
  | .arrow isAsync, [bounds, inputs, result, body] =>
    some (only isAsync "async " ++ bounds ++ inputs ++ only (!result.isEmpty) (": " ++ result ++ " ") ++ "=>" ++
      arrowBodyLayout body)
  | .classBody name, [members, parent] => some (classLayout name parent members)
  | .members, members => some (bracketed "\x7b" "" "" "\x7d" members)
  | .unary op, [e] => some (unaryLayout op e)
  | .update op inFront, [e] => some (if inFront then text op ++ e else e ++ text op)
  | .binary op, [left, right] => some (left ++ " " ++ text op ++ " " ++ right)
  | .conditional, [test, yes, no] => some (test ++ " ? " ++ yes ++ " : " ++ no)
  | .assign op, [target, value] => some (target ++ " " ++ text op ++ " " ++ value)
  | .sequence, es => some (join ", " es)
  | .member optional name, [e] => some (e ++ dot optional ++ text name)
  | .index optional, [e, key] => some (e ++ only optional "?." ++ "[" ++ key ++ "]")
  | .call optional, e :: types :: inputs => some (e ++ only optional "?." ++ types ++ "(" ++ join ", " inputs ++ ")")
  | .construct hasArguments, e :: types :: inputs =>
    some ("new " ++ e ++ types ++ only hasArguments ("(" ++ join ", " inputs ++ ")"))
  | .paren, [e] => some ("(" ++ e ++ ")")
  | .typed op, [e, type] => some (e ++ " " ++ text op ++ " " ++ type)
  | .nonNull, [e] => some (e ++ "!")
  | .typeAssertion, [type, e] => some ("<" ++ type ++ ">" ++ e)
  | .arrayPattern, es => some ("[" ++ join ", " es ++ "]")
  | .objectPattern, [] => some "\x7b\x7d"
  | .objectPattern, es => some ("\x7b " ++ join ", " es ++ " \x7d")
  | .withDefault, [target, value] => some (target ++ " = " ++ value)
  | .annotated optional, [p, type] => some (p ++ only optional "?" ++ behind ": " type)
  | _, _ => none

/-! ## Statements -/

/-- the layout of a statement, if the form is one -/
def statementLayout? : Form → List Layout → Option Layout
  | .script, parts => some (concat (parts.map (· ++ newLine)))
  | .block closing, parts => some (blockLayout closing parts)
  | .expressionStatement, [e] => some (e ++ ";")
  | .emptyStatement, _ => some ";"
  | .declaration kind, parts => some (text kind ++ " " ++ join ", " parts ++ ";")
  | .declarator, [target, value] => some (target ++ behind " = " value)
  | .loopVariable kind, [target] => some (text kind ++ " " ++ target)
  | .ifElse, [test, yes, no] => some ("if (" ++ test ++ ") " ++ branches yes no)
  | .forOf, [target, values, body] => some ("for (" ++ target ++ " of " ++ values ++ ")" ++ body)
  | .whileLoop, [test, body] => some ("while(" ++ test ++ ")" ++ body)
  | .returnStatement, [value] => some ("return" ++ behind " " value ++ ";")
  | .commented before after, [e] =>
    some (concat (before.map Comment.before) ++ e ++ concat (after.map Comment.behind))
  | .moduleClause t source, _ => some (text (t ++ source) ++ ";")
  | .exported, [declaration] => some ("export " ++ declaration)
  | .exportDefault, [e] => some ("export default " ++ e)
  | .typeAlias name, [bounds, type] => some ("type " ++ text name ++ bounds ++ " = " ++ type ++ ";")
  | _, _ => none

/-! ## Types -/

/-- the layout of a type, if the form is one -/
def typeLayout? : Form → List Layout → Option Layout
  | .typeName t, parts => some (text t ++ concat parts)
  | .typeArguments, types => some ("<" ++ join ", " types ++ ">")
  | .typeParameter name, [bound, standard] =>
    some (text name ++ behind " extends " bound ++ behind " = " standard)
  | .typeParameters, bounds => some ("<" ++ join ", " bounds ++ ">")
  | .arrayType, [type] => some (type ++ "[]")
  | .indexedType, [type, index] => some (type ++ "[" ++ index ++ "]")
  | .unionType, types => some (join " | " types)
  | .intersectionType, types => some (join " & " types)
  | .tupleType, types => some ("[" ++ join ", " types ++ "]")
  | .parenType, [type] => some ("(" ++ type ++ ")")
  | .typeOperator op, [type] => some (text op ++ " " ++ type)
  | .functionType, [bounds, inputs, result] => some (bounds ++ inputs ++ "=>" ++ result)
  | .typeLiteral, [] => some (bracketed "\x7b" "" "" "\x7d" [])
  | .typeLiteral, members => some (bracketed "\x7b" ";" ";" "\x7d" members)
  | .typeMember modifier optional, [key, type] =>
    some (text (if modifier.isEmpty then [] else modifier ++ [' ']) ++ key ++ only optional "?" ++ behind ": " type)
  | .methodType optional, [key, signature] => some (key ++ only optional "?" ++ signature)
  | _, _ => none

/-! ## Markup -/

/-- the layout of a child of an element, if the form is one -/
def childLayout? : Form → List Layout → Option Layout
  | .fragment, children => some ("<>" ++ concat children ++ "</>")
  | .markupText written, _ => some (text written)
  | .container, [e] => some ("\x7b" ++ e ++ "\x7d")
  | .emptyContainer comments, _ => some ("\x7b" ++ concat (comments.map Comment.before) ++ "\x7d")
  | .spreadChild, [e] => some ("\x7b..." ++ e ++ "\x7d")
  | _, _ => none

/-- an element -/
def elementLayout (tag : Text) (types attributes : List Layout) (closed : Bool) (children : List Layout) : Layout :=
  "<" ++ text tag ++ concat types ++ concat (attributes.map fun a => " " ++ a) ++
    if closed then ">" ++ concat children ++ "</" ++ text tag ++ ">" else "/>"

/-! ## Whole trees -/

/-- the layout of a form from those of its parts -/
def formLayout (form : Form) (parts : List Layout) : Layout :=
  ((expressionLayout? form parts).orElse fun _ =>
    (statementLayout? form parts).orElse fun _ =>
      (typeLayout? form parts).orElse fun _ => childLayout? form parts).getD empty

mutual

/-- the layout of a tree -/
def Node.layout : Node → Layout
  | .plain form parts => formLayout form (Node.layoutAll parts)
  | .element tag types attributes closed children =>
    elementLayout tag.text (Node.layoutAll types) (Attribute.layoutAll attributes) closed (Node.layoutAll children)

/-- the layouts of trees -/
def Node.layoutAll : List Node → List Layout
  | [] => []
  | e :: rest => e.layout :: Node.layoutAll rest

/-- the layout of an attribute -/
def Attribute.layout : Attribute → Layout
  | .spread e => "\x7b..." ++ e.layout ++ "\x7d"
  | .named name value => text name ++ value.layout

/-- the layouts of attributes -/
def Attribute.layoutAll : List Attribute → List Layout
  | [] => []
  | a :: rest => a.layout :: Attribute.layoutAll rest

/-- the layout of a value with its equals sign -/
def Value.layout : Value → Layout
  | .missing => empty
  | .quoted written => "=" ++ text written
  | .braced e _ => "=\x7b" ++ e.layout ++ "\x7d"
  | .markup e _ => "=" ++ e.layout

end

/-- the text of a script -/
def Node.print (e : Node) : Text := e.layout.render 0

end TerseStyle.Script

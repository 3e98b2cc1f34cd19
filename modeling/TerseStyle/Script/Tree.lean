/-
Script trees. A script is a tree of constructs: every node has a form, which says what it is and holds the text that
belongs to it alone, and parts, its operands in the order in which they are visited. That is their order in the source,
but for a class. Markup elements are nodes of their own, because rewriting looks at their attributes; a value in an
attribute keeps the text that it was written as.

Traversals treat all forms alike and differ only at elements. Reading and printing know how many parts a form has and
what they stand for; an operand that may be left out is the part `.absent`.
-/
import TerseStyle.Text.Basic

namespace TerseStyle.Script

/-- a comment without its delimiters -/
structure Comment where
  isBlock : Bool
  body : Text
  /-- whether a line break stands between it and the token before it -/
  ownLine : Bool
  deriving DecidableEq, Repr

/-- what a node is -/
inductive Form where
  /-- an operand that was left out -/
  | absent
  -- expressions
  /-- an identifier, or a word that stands for a value -/
  | word (t : Text)
  /-- a number, a string, a regular expression or a literal word, as written -/
  | literal (written : Text)
  /-- a string that was not written anywhere -/
  | string (value : Text)
  /-- a template literal: the pieces of text as written, and the expressions between them -/
  | template (pieces : List Text)
  /-- tag, template -/
  | tagged
  | array
  /-- an element left out of an array -/
  | hole
  | object
  /-- key, value -/
  | property
  /-- a key in brackets -/
  | computedKey
  /-- a property given by its name alone -/
  | shorthand (name : Text)
  /-- three dots before an expression or a pattern -/
  | spread
  /-- key, signature, body, with the words in front of the key -/
  | method (modifiers : List Text)
  /-- key, type, value, with the words in front of the key -/
  | field (modifiers : List Text)
  /-- type parameters, parameters, result type -/
  | signature
  | parameters
  /-- signature, body -/
  | function (modifier star name : Text)
  /-- type parameters, parameters, result type, body -/
  | arrow (isAsync : Bool)
  /-- members, superclass: the order in which they are visited -/
  | classBody (name : Text)
  | members
  | unary (op : Text)
  /-- an increment or decrement -/
  | update (op : Text) (inFront : Bool)
  /-- left, right -/
  | binary (op : Text)
  /-- test, consequent, alternative -/
  | conditional
  /-- target, value -/
  | assign (op : Text)
  | sequence
  /-- the object of a member access by name -/
  | member (optional : Bool) (name : Text)
  /-- object, key -/
  | index (optional : Bool)
  /-- callee, type arguments, arguments -/
  | call (optional : Bool)
  /-- callee, type arguments, arguments -/
  | construct (hasArguments : Bool)
  | paren
  /-- expression, type -/
  | typed (op : Text)
  | nonNull
  /-- type, expression -/
  | typeAssertion
  -- patterns
  | arrayPattern
  | objectPattern
  /-- target, default value -/
  | withDefault
  /-- pattern, type -/
  | annotated (optional : Bool)
  -- statements
  | script
  /-- a block, with the comments before its closing brace -/
  | block (closing : List Comment)
  | expressionStatement
  | emptyStatement
  | declaration (kind : Text)
  /-- pattern, value -/
  | declarator
  /-- the pattern that a loop declares -/
  | loopVariable (kind : Text)
  /-- test, consequent, alternative -/
  | ifElse
  /-- target, iterated value, body -/
  | forOf
  /-- test, body -/
  | whileLoop
  | returnStatement
  /-- a statement with comments around it -/
  | commented (before after : List Comment)
  /-- an import or export with a fixed text, from a module -/
  | moduleClause (t : Text) (source : Text)
  | exported
  | exportDefault
  /-- type parameters, type -/
  | typeAlias (name : Text)
  -- types
  /-- a named type and its type arguments -/
  | typeName (t : Text)
  | typeArguments
  /-- constraint, default -/
  | typeParameter (name : Text)
  | typeParameters
  | arrayType
  /-- object type, index type -/
  | indexedType
  | unionType
  | intersectionType
  | tupleType
  | parenType
  /-- a type under a word such as `keyof` -/
  | typeOperator (op : Text)
  /-- type parameters, parameters, result type -/
  | functionType
  | typeLiteral
  /-- key, type -/
  | typeMember (modifier : Text) (optional : Bool)
  /-- key, signature -/
  | methodType (optional : Bool)
  -- markup
  | fragment
  | markupText (written : Text)
  /-- an expression among the children of an element -/
  | container
  /-- a container without an expression -/
  | emptyContainer (comments : List Comment)
  /-- an expression whose members become children -/
  | spreadChild
  deriving DecidableEq

/-- the name of an element -/
inductive TagName where
  /-- a plain name -/
  | plain (t : Text)
  /-- any other name, namespaced or with member accesses, as written -/
  | compound (written : Text)
  deriving DecidableEq, Repr

/-- the text of an element's name -/
def TagName.text : TagName → Text
  | plain t => t
  | compound written => written

/-- lower-case plain names are intrinsic elements; all others are components -/
def TagName.isIntrinsic : TagName → Bool
  | plain (c :: _) => 'a' ≤ c && c ≤ 'z'
  | _ => false

mutual

/-- a script, or a part of one -/
inductive Node where
  | plain (form : Form) (parts : List Node)
  /-- an element; one without a closing tag has no children -/
  | element (tag : TagName) (typeArguments : List Node) (attributes : List Attribute) (closed : Bool)
      (children : List Node)

/-- an attribute of an element -/
inductive Attribute where
  | spread (value : Node)
  | named (name : Text) (value : Value)

/-- the value of an attribute -/
inductive Value where
  | missing
  /-- a quoted text as written, with its quotes -/
  | quoted (written : Text)
  /-- an expression in braces, with the text that it was written as -/
  | braced (expression : Node) (source : Text)
  /-- an element or a fragment without braces, with the text that it was written as -/
  | markup (node : Node) (source : Text)

end

namespace Attribute

/-- the name of an attribute; a spread has none -/
def name? : Attribute → Option Text
  | spread _ => none
  | named name _ => some name

/-- the value of an attribute; a spread has none -/
def value : Attribute → Value
  | spread _ => .missing
  | named _ value => value

end Attribute

namespace Node

/-- an operand that was left out -/
def absent : Node := .plain .absent []

end Node

end TerseStyle.Script

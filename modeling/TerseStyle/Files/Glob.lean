/-
Glob patterns. A star stands for any characters, a question mark for one, brackets for one of a class; two stars that are
a whole component stand for any directories. A pattern matches a whole name.
-/
import TerseStyle.Files.Tree

namespace TerseStyle.Files.Glob

/-- a character, or a range of characters, in a class -/
inductive Specifier where
  | single (c : Char)
  | range (first last : Char)
  deriving DecidableEq, Repr

/-- a part of a pattern -/
inductive Token where
  | char (c : Char)
  | anyChar
  | anySequence
  | anyDirectories
  | within (specifiers : List Specifier)
  | outside (specifiers : List Specifier)
  deriving DecidableEq, Repr

/-- why a text is not a pattern -/
inductive Cause where
  /-- three or more stars -/
  | tooManyStars
  /-- two stars that are not a whole component -/
  | partialRecursion
  /-- brackets that are not closed or hold nothing -/
  | invalidRange
  deriving DecidableEq, Repr

/-- where and why a text is not a pattern -/
structure Fault where
  position : Nat
  cause : Cause
  deriving DecidableEq, Repr

/-- the wording of a cause -/
def Cause.message : Cause → Text
  | tooManyStars => "wildcards are either regular `*` or recursive `**`".toList
  | partialRecursion => "recursive wildcards must form a single path component".toList
  | invalidRange => "invalid range pattern".toList

/-- the wording of a fault -/
def Fault.message (f : Fault) : Text :=
  "Pattern syntax error near position ".toList ++ Text.ofNat f.position ++ ": ".toList ++ f.cause.message

/-! ## Reading patterns -/

/-- the specifiers between brackets -/
def specifiers : Text → List Specifier
  | c :: '-' :: d :: rest => .range c d :: specifiers rest
  | c :: rest => .single c :: specifiers rest
  | [] => []

/-- a class behind its opening bracket, with the number of characters up to the closing one. A bracket right in front
belongs to the class. -/
def class? (t : Text) : Option (Token × Nat) :=
  match t with
  | '!' :: first :: rest =>
    let inner := rest.takeWhile (· ≠ ']')
    if inner.length < rest.length then some (.outside (specifiers (first :: inner)), inner.length + 3) else none
  | '!' :: [] => none
  | first :: rest =>
    let inner := rest.takeWhile (· ≠ ']')
    if inner.length < rest.length then some (.within (specifiers (first :: inner)), inner.length + 2) else none
  | [] => none

/-- the tokens of stars in front, `count` of them at `position` behind `before`; `behind` is what follows -/
def starTokens (count position : Nat) (before : Option Char) (behind : Text) : Except Fault (List Token) :=
  if count > 2 then .error ⟨position + 2, .tooManyStars⟩
  else if count = 2 then
    if before.all (· = '/') then
      if behind.head?.all (· = '/') then .ok [.anyDirectories] else .error ⟨position + 2, .partialRecursion⟩
    else .error ⟨position - 1, .partialRecursion⟩
  else .ok [.anySequence]

/-- reads a pattern on from `position`, after skipping `skip` characters that are read already -/
def tokensFrom : (skip position : Nat) → (before : Option Char) → Text → Except Fault (List Token)
  | _, _, _, [] => .ok []
  | skip + 1, position, _, c :: rest => tokensFrom skip (position + 1) (some c) rest
  | 0, position, before, c :: rest =>
    if c = '?' then do return .anyChar :: (← tokensFrom 0 (position + 1) (some c) rest)
    else if c = '*' then do
      let count := 1 + (rest.takeWhile (· = '*')).length
      let behind := rest.drop (count - 1)
      let tokens ← starTokens count position before behind
      let extra := if count = 2 && behind.head? = some '/' then 1 else 0
      return tokens ++ (← tokensFrom (count - 1 + extra) (position + 1) (some c) rest)
    else if c = '[' then
      match class? rest with
      | none => .error ⟨position, .invalidRange⟩
      | some (token, n) => do return token :: (← tokensFrom n (position + 1) (some c) rest)
    else do return .char c :: (← tokensFrom 0 (position + 1) (some c) rest)

/-- reads a pattern -/
def tokens (t : Text) : Except Fault (List Token) := tokensFrom 0 0 none t

/-! ## Matching -/

/-- whether a specifier covers a character -/
def Specifier.covers (c : Char) : Specifier → Bool
  | single d => c = d
  | range first last => first ≤ c && c ≤ last

/-- whether a token for one character matches it -/
def Token.matchesChar (c : Char) : Token → Bool
  | char d => c = d
  | anyChar => true
  | within specifiers => specifiers.any (·.covers c)
  | outside specifiers => !specifiers.any (·.covers c)
  | anySequence => false
  | anyDirectories => false

/-- whether a property holds of some end of a text -/
def someEnd (p : Text → Bool) : Text → Bool
  | [] => p []
  | c :: rest => p (c :: rest) || someEnd p rest

/-- whether tokens match a whole name -/
def matchesName : List Token → Text → Bool
  | [], name => name.isEmpty
  | .anySequence :: rest, name => someEnd (matchesName rest) name
  | .anyDirectories :: rest, name => someEnd (matchesName rest) name
  | _ :: _, [] => false
  | token :: rest, c :: name => token.matchesChar c && matchesName rest name

/-! ## Paths that match -/

/-- a component of a pattern -/
inductive Step where
  /-- a name without special characters -/
  | literal (name : Text)
  /-- any directories -/
  | directories
  | pattern (tokens : List Token)
  deriving DecidableEq, Repr

/-- the name that tokens without special characters stand for -/
def literalName? (tokens : List Token) : Option Text :=
  tokens.mapM fun
    | .char c => some c
    | _ => none

/-- the component of a pattern with these tokens -/
def Step.ofTokens (tokens : List Token) : Step :=
  match literalName? tokens with
  | some name => .literal name
  | none => if tokens.contains .anyDirectories then .directories else .pattern tokens

/-- whether a name matches a component of a pattern -/
def Step.matchesName : Step → Text → Bool
  | literal t, name => t = name
  | directories, _ => false
  | pattern tokens, name => Glob.matchesName tokens name

/-- cuts a text at every slash; a slash at the end ends the last piece -/
def pieces (t : Text) : List Text :=
  let all := cutAtSlashes t
  if t.getLast? = some '/' then all.dropLast else all

/-- whether a pattern starts at the root -/
def isRooted (t : Text) : Bool := t.head? = some '/'

/-- the components of a pattern behind the root. The whole pattern is read first, so that it decides where a fault is. -/
def steps (t : Text) : Except Fault (List Step) := do
  let _ ← tokens t
  (pieces (if isRooted t then t.drop 1 else t)).mapM fun piece => do return Step.ofTokens (← tokens piece)

/-- inserts a text into texts in ascending order -/
def insertText (t : Text) : List Text → List Text
  | [] => [t]
  | u :: rest => if textBefore u t then u :: insertText t rest else t :: u :: rest

/-- texts in ascending order -/
def sortTexts (texts : List Text) : List Text := texts.foldr insertText []

/-- the names in the directory at the end of a path, in ascending order -/
def namesAt (disk : Disk) (path : Text) : List Text :=
  match disk.locate path with
  | .ok location => if disk.tree.get? location = some .directory then sortTexts (disk.tree.names location) else []
  | .error _ => []

/-- the paths of everything below a path, at most so many levels down; a directory comes before what it holds -/
def below (disk : Disk) : (depth : Nat) → (path : Text) → List Text
  | 0, _ => []
  | depth + 1, path =>
    (namesAt disk path).flatMap fun name => joinPath path name :: below disk depth (joinPath path name)

/-- the paths of everything below a path -/
def allBelow (disk : Disk) (path : Text) : List Text := below disk (disk.tree.length + 1) path

/-- the names of the directory itself and the one above that a component in dots matches -/
def dotNames (tokens : List Token) : List Text :=
  if tokens.head? = some (.char '.') then
    [['.', '.'], ['.']].filter (matchesName tokens)
  else []

/-- the paths that match components of a pattern from a path on -/
def matching (disk : Disk) : List Step → (path : Text) → List Text
  | [], path => [path]
  | .literal name :: rest, path =>
    let next := joinPath path name
    let isDots := name = ['.'] || name = ['.', '.']
    if if isDots then disk.isDirectory path else (disk.at? next).isSome then matching disk rest next else []
  | .pattern tokens :: rest, path =>
    if disk.isDirectory path then
      (dotNames tokens).flatMap (fun name => matching disk rest (joinPath path name)) ++
        ((namesAt disk path).filter (matchesName tokens)).flatMap fun name => matching disk rest (joinPath path name)
    else []
  | .directories :: .directories :: rest, path => matching disk (.directories :: rest) path
  | .directories :: step :: rest, path =>
    ((allBelow disk path).filter fun below => (fileName? below).any step.matchesName).flatMap (matching disk rest)
  | [.directories], path => (allBelow disk path).filter disk.isDirectory

/-- the paths that match a pattern; a slash at its end asks for directories -/
def paths (disk : Disk) (t : Text) : Except Fault (List Text) := do
  let steps ← steps t
  let found := if t.isEmpty then [] else matching disk steps (if isRooted t then ['/'] else ['.'])
  return if t.getLast? = some '/' then found.filter disk.isDirectory else found

/-- finds the paths that match a pattern; all of them can be read -/
def matcher : Matcher := fun disk t =>
  match paths disk t with
  | .error fault => .error fault.message
  | .ok found => .ok (found.map .ok)

end TerseStyle.Files.Glob

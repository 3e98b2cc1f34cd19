/-
Paths. A path is a text of names between slashes; repeated slashes and single dots say nothing, except for a dot in front
of a relative path. Paths are ordered by their components.
-/
import TerseStyle.Text.Basic

namespace TerseStyle.Files

/-- a component of a path -/
inductive Component where
  /-- the slash in front of an absolute path -/
  | root
  /-- a dot in front of a relative path -/
  | current
  /-- two dots -/
  | parent
  | name (t : Text)
  deriving DecidableEq, Repr

/-- cuts a text at every slash -/
def cutAtSlashes : Text → List Text
  | [] => [[]]
  | c :: rest =>
    match c, cutAtSlashes rest with
    | '/', pieces => [] :: pieces
    | c, piece :: pieces => (c :: piece) :: pieces
    | c, [] => [[c]]

/-- the component that a piece between slashes stands for, if it says anything -/
def component? (piece : Text) : Option Component :=
  if piece.isEmpty || piece = ['.'] then none
  else if piece = ['.', '.'] then some .parent
  else some (.name piece)

/-- what a path starts with in front of its names -/
def lead (path : Text) : List Component :=
  if path.head? = some '/' then [.root] else if (cutAtSlashes path).head? = some ['.'] then [.current] else []

/-- the components of a path -/
def components (path : Text) : List Component := lead path ++ (cutAtSlashes path).filterMap component?

/-! ## Names and extensions -/

/-- the name that a path ends with -/
def fileName? (path : Text) : Option Text :=
  match (components path).getLast? with
  | some (.name t) => some t
  | _ => none

/-- what stands behind the last dot of a name; a dot in front does not count -/
def nameExtension? (name : Text) : Option Text :=
  let behind := name.reverse.takeWhile (· ≠ '.')
  if behind.length + 1 < name.length then some behind.reverse else none

/-- the extension of the name that a path ends with -/
def extension? (path : Text) : Option Text := (fileName? path).bind nameExtension?

/-! ## Order -/

/-- the place of a component among those of other kinds -/
def Component.rank : Component → Nat
  | root => 0
  | current => 1
  | parent => 2
  | name _ => 3

/-- whether a text comes before another one, character by character -/
def textBefore : Text → Text → Bool
  | _, [] => false
  | [], _ :: _ => true
  | c :: rest, d :: others => c < d || (c = d && textBefore rest others)

/-- whether a component comes before another one -/
def Component.before : Component → Component → Bool
  | name t, name u => textBefore t u
  | a, b => a.rank < b.rank

/-- whether a list of components comes before another one -/
def componentsBefore : List Component → List Component → Bool
  | _, [] => false
  | [], _ :: _ => true
  | a :: rest, b :: others => a.before b || (a = b && componentsBefore rest others)

/-- whether a path comes before another one -/
def pathBefore (a b : Text) : Bool := componentsBefore (components a) (components b)

/-- whether two paths have the same components -/
def samePath (a b : Text) : Bool := components a = components b

end TerseStyle.Files

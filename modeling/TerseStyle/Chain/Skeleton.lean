/-
The skeleton of a style chain: its text with every outermost parenthesised group replaced by a numbered placeholder.
The groups are lifted out as arguments; a group inside a group stays in the text of its argument. `splice` puts the
arguments back.
-/
import TerseStyle.Chain.Argument

namespace TerseStyle.Chain

/-- a skeleton with the arguments lifted out of it, in order -/
structure Lifted where
  skeleton : Text
  arguments : List Argument
  deriving DecidableEq, Repr

namespace Lifted

/-- puts text in front of the skeleton -/
def prepend (front : Text) (l : Lifted) : Lifted := { l with skeleton := front ++ l.skeleton }

/-- puts an argument in front of the others -/
def addArgument (a : Argument) (l : Lifted) : Lifted := { l with arguments := a :: l.arguments }

end Lifted

/-- reads on at nesting `depth`, inside the group whose text so far is `group`; `next` numbers the next argument. A
closing parenthesis outside all groups is copied, and a group that is never closed is lost. -/
def liftFrom (next depth : Nat) (group : Text) : Text → Lifted
  | [] => ⟨[], []⟩
  | c :: rest =>
    match depth with
    | 0 =>
      if c = '(' then (liftFrom next 1 [] rest).prepend ('(' :: '"' :: placeholder next ++ ['"'])
      else (liftFrom next 0 [] rest).prepend [c]
    | 1 =>
      if c = ')' then
        ((liftFrom (next + 1) 0 [] rest).prepend [c]).addArgument (.classify group)
      else liftFrom next (if c = '(' then 2 else 1) (group ++ [c]) rest
    | deeper + 2 =>
      let depth := if c = '(' then deeper + 3 else if c = ')' then deeper + 1 else deeper + 2
      liftFrom next depth (group ++ [c]) rest

theorem liftFrom_nil (next depth : Nat) (group : Text) : liftFrom next depth group [] = ⟨[], []⟩ := by rw [liftFrom]

theorem liftFrom_plain {next : Nat} {c : Char} {t : Text} (h : c ≠ '(') :
    liftFrom next 0 [] (c :: t) = (liftFrom next 0 [] t).prepend [c] := by
  rw [liftFrom, if_neg h]

theorem liftFrom_open {next : Nat} {t : Text} :
    liftFrom next 0 [] ('(' :: t) = (liftFrom next 1 [] t).prepend ('(' :: '"' :: placeholder next ++ ['"']) := by
  rw [liftFrom, if_pos rfl]

/-- lifts the outermost groups out of a text, numbering the placeholders from `offset` -/
def lift (t : Text) (offset : Nat) : Lifted := liftFrom offset 0 [] t

/-- the written form of a call on the argument with this index -/
def callMarker (index : Nat) : Text := '(' :: '"' :: placeholder index ++ ['"', ')']

/-- puts the arguments back into a skeleton, the last one first, each at the first marker with its index -/
def splice (skeleton : Text) (arguments : List Argument) (offset : Nat) : Text :=
  (arguments.zipIdx offset).foldr
    (fun (a, index) t => Text.replaceFirst (callMarker index) ('(' :: a.raw ++ [')']) t) skeleton

end TerseStyle.Chain

/-
Settled elements. An element is settled when a rewrite has nothing to do on it: it is a component, or none of its
attributes is a marker or holds a chain. Whether it is depends on its shape alone, the name of the element and those of
its attributes.

Results:
- `settled_congr`: rows of elements of one shape are settled together.
- `Diverges.shape_ne`: two rows are of different shapes if the first difference is that an element was settled.
-/
import TerseStyle.Rewrite.ChainAttribute
import TerseStyle.Script.Elements

namespace TerseStyle.Rewrite

open Script

/-- whether an attribute is shorthand: a marker, or one that holds a chain -/
def isShorthand (settings : Settings) (a : Attribute) : Bool := isMarker a || isChain settings a

/-- an element that a rewrite has nothing to do on -/
def IsSettled (settings : Settings) (o : Opening) : Prop :=
  o.tag.isIntrinsic = true → ∀ a ∈ o.attributes, isShorthand settings a = false

instance (settings : Settings) (o : Opening) : Decidable (IsSettled settings o) :=
  inferInstanceAs (Decidable (_ → _))

/-- elements that a rewrite has nothing to do on -/
def Settled (settings : Settings) (os : List Opening) : Prop := ∀ o ∈ os, IsSettled settings o

instance (settings : Settings) (os : List Opening) : Decidable (Settled settings os) :=
  inferInstanceAs (Decidable (∀ o ∈ os, _))

variable {settings : Settings} {o p : Opening} {os ps : List Opening}

theorem settled_nil : Settled settings [] := by
  intro o ho
  cases ho

theorem settled_cons : Settled settings (o :: os) ↔ IsSettled settings o ∧ Settled settings os :=
  List.forall_mem_cons

theorem settled_append : Settled settings (os ++ ps) ↔ Settled settings os ∧ Settled settings ps :=
  List.forall_mem_append

/-! ## Shapes -/

/-- the name of an element and the names of its attributes; a spread has none -/
def shape (o : Opening) : TagName × List (Option Text) := (o.tag, o.attributes.map (·.name?))

/-- whether the name of an attribute makes it shorthand -/
def isShorthandName (settings : Settings) (name : Option Text) : Bool :=
  name.any classMarker.isPrefixOf || name.any settings.isChainAttribute

theorem isSettled_iff_shape :
    IsSettled settings o ↔
      ((shape o).1.isIntrinsic = true → ∀ n ∈ (shape o).2, isShorthandName settings n = false) := by
  refine imp_congr_right fun _ => ?_
  rw [shape, List.forall_mem_map]
  rfl

theorem isSettled_congr (h : shape o = shape p) : IsSettled settings o ↔ IsSettled settings p := by
  rw [isSettled_iff_shape, isSettled_iff_shape, h]

/-- rows of elements of one shape are settled together -/
theorem settled_congr (h : os.map shape = ps.map shape) : Settled settings os ↔ Settled settings ps := by
  have settled_iff (os : List Opening) : Settled settings os ↔ ∀ s ∈ os.map shape, s.1.isIntrinsic = true →
      ∀ n ∈ s.2, isShorthandName settings n = false := by
    rw [List.forall_mem_map]
    exact forall₂_congr fun o _ => isSettled_iff_shape
  rw [settled_iff, settled_iff, h]

/-! ## Diverging rows -/

/-- two rows of elements, of one shape up to an element that is settled in the second row only -/
inductive Diverges (settings : Settings) : List Opening → List Opening → Prop
  | here {o p : Opening} {os ps : List Opening} : ¬ IsSettled settings o → IsSettled settings p →
      Diverges settings (o :: os) (p :: ps)
  | later {o p : Opening} {os ps : List Opening} : shape o = shape p → Diverges settings os ps →
      Diverges settings (o :: os) (p :: ps)

theorem Diverges.append (h : Diverges settings os ps) (os' ps' : List Opening) :
    Diverges settings (os ++ os') (ps ++ ps') := by
  induction h with
  | here ho hp => exact .here ho hp
  | later hshape _ ih => exact .later hshape ih

theorem Diverges.behind (h : Diverges settings os ps) (front : List Opening) :
    Diverges settings (front ++ os) (front ++ ps) := by
  induction front with
  | nil => exact h
  | cons o front ih => exact .later rfl ih

theorem Diverges.shape_ne (h : Diverges settings os ps) : os.map shape ≠ ps.map shape := by
  induction h with
  | here ho hp =>
    intro heq
    exact ho ((isSettled_congr (List.cons.inj heq).1).2 hp)
  | later _ _ ih =>
    intro heq
    exact ih (List.cons.inj heq).2

end TerseStyle.Rewrite

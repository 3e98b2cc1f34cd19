/-
Layers of a vocabulary. A vocabulary that others are laid over one after the other answers a key from the last of them
that has it. So all that counts of a history of changes is which layers came since the vocabulary was last replaced, and
it makes no difference which of them were laid over each other first.

Results:
- `Dictionary.get?_insertAll`, `Dictionary.get?_extend`: the last entry under a key is its value.
- `Layered.extend`: layers of a vocabulary and of one that is laid over it are layers of the whole.
- `Layered.changed`, `Grouped.layered`: the layers that a history and a grouping leave.
-/
import Mathlib.Data.List.Basic
import TerseStyle.Vocabulary

namespace TerseStyle

/-! ## Dictionaries -/

namespace Dictionary

variable {d top : Dictionary} {key other value : Text} {entries : List (Text × Text)}

theorem lookup_cons_ite (e : Text × Text) (entries : List (Text × Text)) (key : Text) :
    (e :: entries).lookup key = if key = e.1 then some e.2 else entries.lookup key := by
  rw [List.lookup_cons]
  by_cases h : key = e.1
  · rw [if_pos h, beq_iff_eq.2 h]
  · rw [if_neg h, beq_eq_false_iff_ne.2 h]

theorem lookup_of_not_mem (h : key ∉ entries.map Prod.fst) : entries.lookup key = none := by
  rw [List.lookup_eq_none_iff]
  intro e he
  rw [bne_iff_ne]
  rintro rfl
  exact h (List.mem_map_of_mem he)

/-- entries under other keys make no difference -/
theorem lookup_filter_of_ne (h : other ≠ key) :
    (entries.filter fun e => e.1 ≠ key).lookup other = entries.lookup other := by
  induction entries with
  | nil => rfl
  | cons e entries ih =>
    by_cases he : e.1 = key
    · rw [List.filter_cons_of_neg (by simpa using he), lookup_cons_ite, if_neg (he ▸ h), ih]
    · rw [List.filter_cons_of_pos (by simpa using he), lookup_cons_ite, lookup_cons_ite, ih]

theorem get?_empty (key : Text) : empty.get? key = none := rfl

theorem get?_insert (d : Dictionary) (key value other : Text) :
    (d.insert key value).get? other = if other = key then some value else d.get? other := by
  unfold get? insert
  rw [lookup_cons_ite]
  by_cases h : other = key
  · rw [if_pos h, if_pos h]
  · rw [if_neg h, if_neg h, lookup_filter_of_ne h]

/-- of the entries that are set under a key the last one counts -/
theorem get?_insertAll (d : Dictionary) (entries : List (Text × Text)) (key : Text) :
    (d.insertAll entries).get? key = (entries.reverse.lookup key).or (d.get? key) := by
  induction entries generalizing d with
  | nil => rfl
  | cons e entries ih =>
    have hstep : (d.insertAll (e :: entries)).get? key = ((d.insert e.1 e.2).insertAll entries).get? key := rfl
    rw [hstep, ih, get?_insert, List.reverse_cons, List.lookup_append, Option.or_assoc, lookup_cons_ite]
    by_cases h : key = e.1
    · rw [if_pos h, if_pos h, Option.some_or]
    · rw [if_neg h, if_neg h, List.lookup_nil, Option.none_or]

theorem get?_ofList (entries : List (Text × Text)) (key : Text) :
    (ofList entries).get? key = entries.reverse.lookup key := by
  rw [ofList, get?_insertAll, get?_empty, Option.or_none]

/-- where no key occurs twice, the first entry under a key is the last one -/
theorem lookup_reverse (h : (entries.map Prod.fst).Nodup) (key : Text) :
    entries.reverse.lookup key = entries.lookup key := by
  induction entries with
  | nil => rfl
  | cons e entries ih =>
    rw [List.map_cons, List.nodup_cons] at h
    rw [List.reverse_cons, List.lookup_append, ih h.2, lookup_cons_ite, lookup_cons_ite]
    by_cases hkey : key = e.1
    · rw [if_pos hkey, if_pos hkey, lookup_of_not_mem (hkey ▸ h.1), Option.none_or]
    · rw [if_neg hkey, if_neg hkey, List.lookup_nil, Option.or_none]

theorem get?_extend (d top : Dictionary) (key : Text) :
    (d.extend top).get? key = (top.get? key).or (d.get? key) := by
  rw [extend, get?_insertAll, lookup_reverse top.nodup, get?, get?]

/-- a key that no entry has is missing from the dictionary made of them -/
theorem get?_ofList_eq_none (h : key ∉ entries.map Prod.fst) : (ofList entries).get? key = none := by
  rw [get?_ofList]
  apply lookup_of_not_mem
  rwa [List.map_reverse, List.mem_reverse]

end Dictionary

/-! ## Layers -/

namespace Vocabulary

/-- a vocabulary that answers from the first of these layers that has the key -/
structure Layered (v : Vocabulary) (layers : List Vocabulary) : Prop where
  classes : ∀ key, v.classes.get? key = layers.findSome? (·.classes.get? key)
  propertyPrefixes : ∀ key, v.propertyPrefixes.get? key = layers.findSome? (·.propertyPrefixes.get? key)

/-- two vocabularies answer a key alike -/
def Alike (v w : Vocabulary) (key : Text) : Prop := v.classOf? key = w.classOf? key ∧ v.prefixOf? key = w.prefixOf? key

variable {v w top : Vocabulary} {layers above : List Vocabulary}

theorem layered_single (v : Vocabulary) : v.Layered [v] :=
  ⟨fun _ => List.findSome?_singleton.symm, fun _ => List.findSome?_singleton.symm⟩

/-- **The layers of what is laid over a vocabulary** come in front of its own. -/
theorem Layered.extend (hv : v.Layered layers) (htop : top.Layered above) :
    (v.extend top).Layered (above ++ layers) := by
  constructor
  · intro key
    rw [List.findSome?_append, ← htop.classes, ← hv.classes]
    exact Dictionary.get?_extend v.classes top.classes key
  · intro key
    rw [List.findSome?_append, ← htop.propertyPrefixes, ← hv.propertyPrefixes]
    exact Dictionary.get?_extend v.propertyPrefixes top.propertyPrefixes key

/-- the class of a key is the key itself if the layer that answers has an empty one -/
theorem Layered.classOf? (h : v.Layered layers) (key : Text) :
    v.classOf? key =
      (layers.findSome? (·.classes.get? key)).map fun mapped => if mapped.isEmpty then key else mapped := by
  rw [Vocabulary.classOf?, h.classes]

theorem Layered.prefixOf? (h : v.Layered layers) (key : Text) :
    v.prefixOf? key = layers.findSome? (·.propertyPrefixes.get? key) := h.propertyPrefixes key

/-- vocabularies of the same layers answer alike -/
theorem Layered.alike (hv : v.Layered layers) (hw : w.Layered layers) (key : Text) : v.Alike w key :=
  ⟨by rw [hv.classOf?, hw.classOf?], by rw [hv.prefixOf?, hw.prefixOf?]⟩

/-- a layer without the key makes no difference to its answers -/
theorem Layered.alike_of_missing {key : Text} (hv : v.Layered (top :: layers)) (hw : w.Layered layers)
    (hclass : top.classes.get? key = none) (hstem : top.propertyPrefixes.get? key = none) : v.Alike w key := by
  constructor
  · rw [hv.classOf?, hw.classOf?, List.findSome?_cons, hclass]
  · rw [hv.prefixOf?, hw.prefixOf?, List.findSome?_cons, hstem]

/-! ## Histories -/

/-- a change of a vocabulary -/
inductive Change where
  /-- it is replaced, by the standard one, an empty one or one made of entries -/
  | replace (v : Vocabulary)
  /-- another one is laid over it -/
  | extend (top : Vocabulary)

/-- the vocabulary behind a change -/
def change (v : Vocabulary) : Change → Vocabulary
  | .replace w => w
  | .extend top => v.extend top

/-- the vocabulary behind changes, one after the other -/
def changed (v : Vocabulary) (changes : List Change) : Vocabulary := changes.foldl change v

theorem changed_append (v : Vocabulary) (before after : List Change) :
    v.changed (before ++ after) = (v.changed before).changed after := List.foldl_append

/-- the layers since the last replacement, the last one first -/
def layersBehind (layers : List Vocabulary) : List Change → List Vocabulary
  | [] => layers
  | .replace w :: changes => layersBehind [w] changes
  | .extend top :: changes => layersBehind (top :: layers) changes

/-- a change leaves the layers that it should -/
theorem Layered.change (h : v.Layered layers) (c : Change) : (v.change c).Layered (layersBehind layers [c]) := by
  cases c with
  | replace w => exact layered_single w
  | extend top => exact h.extend (layered_single top)

/-- **A vocabulary with a history** answers from the layers since its last replacement. -/
theorem Layered.changed (h : v.Layered layers) (changes : List Change) :
    (v.changed changes).Layered (layersBehind layers changes) := by
  induction changes generalizing v layers with
  | nil => exact h
  | cons c changes ih =>
    have hrest := ih (h.change c)
    cases c <;> exact hrest

/-- the replacement hides what was there before it -/
example (a b c d : Vocabulary) : layersBehind [a] [.extend b, .replace c, .extend d] = [d, c] := rfl

theorem Layered.extendAll (h : v.Layered layers) (tops : List Vocabulary) :
    (v.changed (tops.map .extend)).Layered (tops.reverse ++ layers) := by
  induction tops generalizing v layers with
  | nil => exact h
  | cons top tops ih =>
    have hrest := ih (h.extend (layered_single top))
    rwa [List.reverse_cons, List.append_assoc]

/-! ## Groupings -/

/-- `Grouped vs v`: `v` is made by laying the vocabularies `vs`, in this order, over each other in some grouping -/
inductive Grouped : List Vocabulary → Vocabulary → Prop
  | single (v : Vocabulary) : Grouped [v] v
  | extend {vs ws : List Vocabulary} {v w : Vocabulary} : Grouped vs v → Grouped ws w → Grouped (vs ++ ws) (v.extend w)

theorem Grouped.layered {vs : List Vocabulary} (h : Grouped vs v) : v.Layered vs.reverse := by
  induction h with
  | single v => exact layered_single v
  | extend _ _ ihv ihw =>
    rw [List.reverse_append]
    exact ihv.extend ihw

end Vocabulary

end TerseStyle

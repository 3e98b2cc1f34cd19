/-
What becomes of the attributes of an element. A rewrite takes some of them out and puts new ones behind the others; here
the ones taken out are counted by kind. Chain and markers are rewritten one after the other, and the second may take out
what the first one put there: attributes are followed as a row of old ones with a row of made ones behind it.

Results:
- `rewriteChain_takes`, `rewriteMarkers_takes`: what a chain, and what markers, take out of the old and the made row.
- `rewriteAttributes_conserves`: both together. The old attributes that stay are untouched and in order; the others are
  the shorthand, and at most one class and one style that were merged.
-/
import TerseStyle.Proofs.Rewrite.Element
import TerseStyle.Script.Standard

namespace TerseStyle.Rewrite

open Script

variable {settings : Settings} {language : Language} {before after : Trace}

/-! ## Rows divided in two -/

/-- attributes divided into those that are kept, in their order, and those that are taken out -/
structure Splits (as kept removed : List Attribute) : Prop where
  order : kept.Sublist as
  all : as.Perm (kept ++ removed)

namespace Splits

variable {as mid kept removed removed' : List Attribute}

theorem refl (as : List Attribute) : Splits as as [] :=
  ⟨List.Sublist.refl as, by rw [List.append_nil]⟩

theorem trans (h : Splits as mid removed) (h' : Splits mid kept removed') : Splits as kept (removed' ++ removed) := by
  refine ⟨h'.order.trans h.order, ?_⟩
  rw [← List.append_assoc]
  exact h.all.trans (h'.all.append_right removed)

theorem countP (h : Splits as kept removed) (p : Attribute → Bool) :
    as.countP p = kept.countP p + removed.countP p := by
  rw [h.all.countP_eq, List.countP_append]

theorem filter (p : Attribute → Bool) (as : List Attribute) : Splits as (as.filter fun a => !p a) (as.filter p) := by
  refine ⟨List.filter_sublist, ?_⟩
  have := List.filter_append_perm (fun a => !p a) as
  simpa using this.symm

theorem eraseP (p : Attribute → Bool) (as : List Attribute) : Splits as (as.eraseP p) (as.find? p).toList := by
  refine ⟨List.eraseP_sublist, ?_⟩
  induction as with
  | nil => exact List.Perm.refl []
  | cons a rest ih =>
    rw [List.eraseP_cons, List.find?_cons]
    cases p a with
    | true => exact (List.perm_append_singleton a rest).symm
    | false => exact ih.cons a

theorem takeLast (name : Text) (as : List Attribute) : Splits as (takeLast name as).2 (takeLast name as).1.toList := by
  induction as with
  | nil => exact refl []
  | cons a rest ih =>
    unfold Rewrite.takeLast
    rcases hrest : Rewrite.takeLast name rest with ⟨_ | found, others⟩
    · rw [hrest] at ih
      obtain ⟨horder, hall⟩ := ih
      have hlength : rest.length = others.length := by simpa using hall.length_eq
      obtain rfl : others = rest := horder.eq_of_length hlength.symm
      by_cases hnamed : isNamed name a = true
      · simp only [hnamed, if_true]
        exact ⟨List.sublist_cons_self a others, (List.perm_append_singleton a others).symm⟩
      · simp only [hnamed]
        exact refl (a :: others)
    · rw [hrest] at ih
      exact ⟨ih.order.cons_cons a, ih.all.cons a⟩

end Splits

/-! ## Kinds of attributes -/

/-- whether an attribute marks a class -/
def marksClass (a : Attribute) : Bool := (attributeClass? a).isSome

/-- whether an attribute marks a style property -/
def marksStyle (a : Attribute) : Bool := (attributeProperty? a).isSome

/-- an attribute that a rewrite makes -/
def IsMade (a : Attribute) : Prop := ∃ e, a = expressionAttribute className e ∨ a = expressionAttribute styleName e

theorem IsMade.named {a : Attribute} (h : IsMade a) : isNamed className a = true ∨ isNamed styleName a = true := by
  obtain ⟨e, rfl | rfl⟩ := h
  · exact Or.inl (isNamed_iff.2 rfl)
  · exact Or.inr (isNamed_iff.2 rfl)

/-- an attribute has one name -/
theorem isNamed_ne {name other : Text} (hne : name ≠ other) {a : Attribute} (h : isNamed name a = true) :
    isNamed other a = false := by
  rw [isNamed_iff] at h
  rw [← Bool.not_eq_true, isNamed_iff, h, Option.some.injEq]
  exact hne

theorem className_ne_styleName : className ≠ styleName := by decide

/-- classes and styles are no markers -/
theorem isMarker_of_named {name : Text} (hname : name = className ∨ name = styleName) {a : Attribute}
    (h : isNamed name a = true) : isMarker a = false := by
  unfold isMarker
  rw [isNamed_iff.1 h]
  rcases hname with rfl | rfl <;> decide

theorem IsMade.not_isMarker {a : Attribute} (h : IsMade a) : isMarker a = false := by
  rcases h.named with h | h
  · exact isMarker_of_named (Or.inl rfl) h
  · exact isMarker_of_named (Or.inr rfl) h

theorem any_marks_of_not_isMarker {as : List Attribute} (h : ∀ a ∈ as, isMarker a = false) :
    as.any marksClass = false ∧ as.any marksStyle = false := by
  have hnone (a : Attribute) (ha : a ∈ as) : ¬ (marksClass a = true ∨ marksStyle a = true) := by
    intro hmarks
    have := (isMarker_iff a).2 hmarks
    rw [h a ha] at this
    cases this
  rw [List.any_eq_false, List.any_eq_false]
  exact ⟨fun a ha hmarks => hnone a ha (Or.inl hmarks), fun a ha hmarks => hnone a ha (Or.inr hmarks)⟩

theorem countP_eq_zero_of_named {name other : Text} (hne : name ≠ other) {as : List Attribute}
    (h : ∀ a ∈ as, isNamed name a = true) : as.countP (isNamed other) = 0 := by
  rw [List.countP_eq_zero]
  intro a ha
  simp [isNamed_ne hne (h a ha)]

/-- without markers there are as many classes, and as many styles -/
theorem countP_filter_isMarker {name : Text} (hname : name = className ∨ name = styleName) (as : List Attribute) :
    (as.filter fun a => !isMarker a).countP (isNamed name) = as.countP (isNamed name) := by
  rw [List.countP_filter]
  refine List.countP_congr fun a _ => ?_
  rw [Bool.and_eq_true, Bool.not_eq_true']
  exact ⟨And.left, fun h => ⟨h, isMarker_of_named hname h⟩⟩

theorem countP_markers {name : Text} (hname : name = className ∨ name = styleName) {as : List Attribute}
    (h : ∀ a ∈ as, isMarker a = true) : as.countP (isNamed name) = 0 := by
  rw [List.countP_eq_zero]
  intro a ha hnamed
  have hnone := isMarker_of_named hname hnamed
  rw [h a ha] at hnone
  cases hnone

/-! ## Merging with what was there -/

/-- what merging with the last attribute of a name does to a row: nothing if nothing asks for it, else that attribute is
taken out, if there is one, and a new one of its name is made -/
inductive MergesLast (name : Text) (asked : Bool) (as : List Attribute) : List Attribute → List Attribute → Prop
  | left : asked = false → MergesLast name asked as as []
  | merged (e : Node) : asked = true → MergesLast name asked as (takeLast name as).2 [expressionAttribute name e]

theorem mergeClass_mergesLast (segments : List Segment) (as : List Attribute) :
    MergesLast className (!segments.isEmpty) as (mergeClass segments as).1 (mergeClass segments as).2 := by
  unfold mergeClass
  split
  · rename_i hnone
    exact .left (by simpa using hnone)
  · rename_i hsome
    exact .merged _ (by simpa using hsome)

theorem mergeStyle_mergesLast {element : Text} {entries : List (Text × Node)} {as others news : List Attribute}
    (h : mergeStyle element entries as = .ok (others, news)) :
    MergesLast styleName (!entries.isEmpty) as others news := by
  unfold mergeStyle at h
  split at h
  · rename_i hnone
    cases h
    exact .left (by simpa using hnone)
  · rename_i hsome
    change (existingStyle element (takeLast styleName as).1 >>= fun base =>
      pure ((takeLast styleName as).2, [expressionAttribute styleName (styleObject base entries)])) = _ at h
    rcases hexisting : existingStyle element (takeLast styleName as).1 with e | base
    · rw [hexisting] at h
      cases h
    · rw [hexisting] at h
      cases h
      exact .merged _ (by simpa using hsome)

/-- the last attribute of a name is in the row behind, if that has one of the name -/
theorem takeLast_append (name : Text) (front back : List Attribute) :
    takeLast name (front ++ back) =
      match takeLast name back with
      | (some a, others) => (some a, front ++ others)
      | (none, others) => ((takeLast name front).1, (takeLast name front).2 ++ others) := by
  rcases hback : takeLast name back with ⟨_ | found, others⟩
  · induction front with
    | nil => exact hback
    | cons a front ih =>
      rw [List.cons_append, takeLast, ih, takeLast]
      rcases takeLast name front with ⟨_ | found, others'⟩
      · by_cases hnamed : isNamed name a = true <;> simp [hnamed]
      · rfl
  · induction front with
    | nil => exact hback
    | cons a front ih => rw [List.cons_append, takeLast, ih]; rfl

theorem takeLast_of_none {name : Text} {as : List Attribute} (h : ∀ a ∈ as, isNamed name a = false) :
    takeLast name as = (none, as) := by
  induction as with
  | nil => rfl
  | cons a rest ih =>
    rw [takeLast, ih fun b hb => h b (List.mem_cons_of_mem a hb)]
    simp [h a List.mem_cons_self]

theorem isSome_takeLast (name : Text) (as : List Attribute) :
    (takeLast name as).1.isSome = as.any (isNamed name) := by
  induction as with
  | nil => rfl
  | cons a rest ih =>
    rw [List.any_cons, ← ih, takeLast]
    rcases takeLast name rest with ⟨_ | found, others⟩
    · by_cases hnamed : isNamed name a = true <;> simp [hnamed]
    · simp

theorem length_takeLast (name : Text) (as : List Attribute) :
    (takeLast name as).1.toList.length = min 1 (as.countP (isNamed name)) := by
  have hsome := isSome_takeLast name as
  rcases htaken : (takeLast name as).1 with _ | found
  · rw [htaken] at hsome
    have hnone : as.countP (isNamed name) = 0 := by
      rw [List.countP_eq_zero]
      simpa using hsome.symm
    rw [hnone]; rfl
  · rw [htaken] at hsome
    have hpos : 0 < as.countP (isNamed name) := by
      rw [List.countP_pos_iff]
      simpa using hsome.symm
    simp only [Option.toList_some, List.length_singleton]
    omega

/-- of a row with one attribute of a name the others are left -/
theorem takeLast_of_one {name : Text} {as : List Attribute} (h : as.countP (isNamed name) = 1) :
    (takeLast name as).2 = as.filter fun a => !isNamed name a := by
  induction as with
  | nil => rfl
  | cons a rest ih =>
    rw [takeLast]
    by_cases hnamed : isNamed name a = true
    · rw [List.countP_cons_of_pos hnamed, Nat.add_eq_right, List.countP_eq_zero] at h
      have hrest : ∀ b ∈ rest, isNamed name b = false := fun b hb => by simpa using h b hb
      have hfilter : (rest.filter fun a => !isNamed name a) = rest :=
        List.filter_eq_self.2 fun b hb => by simp [hrest b hb]
      rw [takeLast_of_none hrest, List.filter_cons_of_neg (by simp [hnamed]), hfilter]
      simp [hnamed]
    · rw [List.countP_cons_of_neg hnamed] at h
      have hsome := isSome_takeLast name rest
      rw [List.any_eq_true.2 (List.countP_pos_iff.1 (by omega))] at hsome
      rw [List.filter_cons_of_pos (by simpa using hnamed), ← ih h]
      rcases htaken : takeLast name rest with ⟨_ | found, others⟩
      · rw [htaken] at hsome
        cases hsome
      · rfl

/-- what is taken is the last attribute of the name -/
theorem takeLast_fst (name : Text) (as : List Attribute) :
    (takeLast name as).1 = (as.filter (isNamed name)).getLast? := by
  induction as with
  | nil => rfl
  | cons a rest ih =>
    rw [takeLast, List.filter_cons]
    rcases htaken : takeLast name rest with ⟨_ | found, others⟩
    · rw [htaken, eq_comm, List.getLast?_eq_none_iff] at ih
      rw [ih]
      cases isNamed name a <;> rfl
    · rw [htaken] at ih
      cases isNamed name a with
      | true => simp [List.getLast?_cons, ← ih]
      | false => simpa using ih

/-- what is taken has no other name -/
theorem filter_takeLast {name : Text} {p : Attribute → Bool} (h : ∀ a, isNamed name a = true → p a = false)
    (as : List Attribute) : (takeLast name as).2.filter p = as.filter p := by
  induction as with
  | nil => rfl
  | cons a rest ih =>
    rw [takeLast]
    rcases htaken : takeLast name rest with ⟨_ | found, others⟩
    · rw [htaken] at ih
      by_cases hnamed : isNamed name a = true
      · simpa [hnamed, h a hnamed] using ih
      · simp only [if_neg hnamed]
        rw [List.filter_cons, List.filter_cons, ← ih]
    · rw [htaken] at ih
      rw [List.filter_cons, List.filter_cons, ih]

/-- a style is none of what goes when classes are merged -/
theorem filter_mergeClass (segments : List Segment) (as : List Attribute) :
    (mergeClass segments as).1.filter (isNamed styleName) = as.filter (isNamed styleName) := by
  unfold mergeClass
  split
  · rfl
  · exact filter_takeLast (fun _ => isNamed_ne className_ne_styleName) as

/-- markers are neither classes nor styles -/
theorem filter_notMarker {name : Text} (hname : name = className ∨ name = styleName) (as : List Attribute) :
    (as.filter fun a => !isMarker a).filter (isNamed name) = as.filter (isNamed name) := by
  rw [List.filter_filter]
  refine List.filter_congr fun a _ => ?_
  cases hnamed : isNamed name a with
  | false => rfl
  | true => rw [isMarker_of_named hname hnamed]; rfl

/-- the made row without what merging takes out of it -/
def leftOf (name : Text) (asked : Bool) (made : List Attribute) : List Attribute :=
  if asked then made.filter fun a => !isNamed name a else made

theorem mem_of_mem_leftOf {name : Text} {asked : Bool} {made : List Attribute} {a : Attribute}
    (h : a ∈ leftOf name asked made) : a ∈ made := by
  unfold leftOf at h
  split at h
  · exact List.mem_of_mem_filter h
  · exact h

theorem countP_leftOf (name : Text) (asked : Bool) (made : List Attribute) :
    (leftOf name asked made).countP (isNamed name) = if asked then 0 else made.countP (isNamed name) := by
  unfold leftOf
  split
  · rw [List.countP_filter]
    simp
  · rfl

theorem countP_leftOf_other {name other : Text} (hne : name ≠ other) (asked : Bool) (made : List Attribute) :
    (leftOf name asked made).countP (isNamed other) = made.countP (isNamed other) := by
  unfold leftOf
  split
  · rw [List.countP_filter]
    refine List.countP_congr fun a _ => ?_
    rw [Bool.and_eq_true, Bool.not_eq_true']
    exact ⟨And.left, fun h => ⟨h, isNamed_ne hne.symm h⟩⟩
  · rfl

/-- merging takes at most one attribute out of an old row, and none of it if there is one of the name in the made row -/
theorem MergesLast.splits {name : Text} {asked : Bool} {kept made others news : List Attribute}
    (h : MergesLast name asked (kept ++ made) others news) (hone : made.countP (isNamed name) ≤ 1) :
    ∃ kept' removed, others = kept' ++ leftOf name asked made ∧ Splits kept kept' removed ∧
      (∀ a ∈ removed, isNamed name a = true) ∧
      removed.length =
        if asked = true ∧ made.countP (isNamed name) = 0 then min 1 (kept.countP (isNamed name)) else 0 := by
  unfold leftOf
  cases h with
  | left hasked => exact ⟨kept, [], by simp [hasked], .refl kept, by simp, by simp [hasked]⟩
  | merged e hasked =>
    rw [takeLast_append]
    by_cases hnone : made.countP (isNamed name) = 0
    · have hmade : ∀ a ∈ made, isNamed name a = false := fun a ha => by simpa using List.countP_eq_zero.1 hnone a ha
      have hfilter : (made.filter fun a => !isNamed name a) = made :=
        List.filter_eq_self.2 fun a ha => by simp [hmade a ha]
      rw [takeLast_of_none hmade]
      refine ⟨_, _, ?_, .takeLast name kept, fun a ha => isNamed_takeLast (Option.mem_toList.1 ha), ?_⟩
      · simp only [hasked, if_true, hfilter]
      · simp only [hasked, hnone, and_self, if_true, length_takeLast]
    · have hsome := isSome_takeLast name made
      rw [List.any_eq_true.2 (List.countP_pos_iff.1 (by omega))] at hsome
      have hothers := takeLast_of_one (show made.countP (isNamed name) = 1 by omega)
      rcases htaken : takeLast name made with ⟨_ | found, rest⟩
      · rw [htaken] at hsome
        cases hsome
      · rw [htaken] at hothers
        refine ⟨kept, [], ?_, .refl kept, by simp, by simp [hnone]⟩
        simp only [hasked, if_true, ← hothers]

/-- merging makes one attribute of its name if something asks for it, and none otherwise -/
theorem MergesLast.news {name : Text} {asked : Bool} {as others news : List Attribute}
    (h : MergesLast name asked as others news) :
    (∀ a ∈ news, ∃ e, a = expressionAttribute name e) ∧ (∀ a ∈ news, isNamed name a = true) ∧
      news.length = if asked then 1 else 0 := by
  cases h with
  | left hasked => simp [hasked]
  | merged e hasked =>
    rw [hasked]
    refine ⟨fun a ha => ⟨e, List.mem_singleton.1 ha⟩, fun a ha => ?_, rfl⟩
    rw [List.mem_singleton.1 ha]
    exact isNamed_iff.2 rfl

/-- what merging a class and a style does to a row of old attributes with a row of made ones behind it -/
structure MergeTakes (classAsked styleAsked : Bool) (kept made kept' removed made' : List Attribute) : Prop where
  splits : Splits kept kept' removed
  taken : ∀ a ∈ removed, isNamed className a = true ∨ isNamed styleName a = true
  classes : removed.countP (isNamed className) =
    if classAsked = true ∧ made.countP (isNamed className) = 0 then min 1 (kept.countP (isNamed className)) else 0
  styles : removed.countP (isNamed styleName) =
    if styleAsked = true ∧ made.countP (isNamed styleName) = 0 then min 1 (kept.countP (isNamed styleName)) else 0
  areMade : ∀ a ∈ made', IsMade a
  madeClasses : made'.countP (isNamed className) = if classAsked then 1 else made.countP (isNamed className)
  madeStyles : made'.countP (isNamed styleName) = if styleAsked then 1 else made.countP (isNamed styleName)

/-- the class is merged first, then the style with what that left -/
theorem MergesLast.both {classAsked styleAsked : Bool} {kept made middle classes others styles : List Attribute}
    (hclass : MergesLast className classAsked (kept ++ made) middle classes)
    (hstyle : MergesLast styleName styleAsked middle others styles) (hmade : ∀ a ∈ made, IsMade a)
    (hclasses : made.countP (isNamed className) ≤ 1) (hstyles : made.countP (isNamed styleName) ≤ 1) :
    ∃ kept' removed made', others ++ classes ++ styles = kept' ++ made' ∧
      MergeTakes classAsked styleAsked kept made kept' removed made' := by
  have hne := className_ne_styleName
  obtain ⟨kept₁, removed₁, rfl, hsplits₁, hnamed₁, hlength₁⟩ := hclass.splits hclasses
  have hleft := countP_leftOf_other hne classAsked made
  obtain ⟨kept₂, removed₂, rfl, hsplits₂, hnamed₂, hlength₂⟩ := hstyle.splits (by rwa [hleft])
  obtain ⟨hclassMade, hclassNamed, hclassCount⟩ := hclass.news
  obtain ⟨hstyleMade, hstyleNamed, hstyleCount⟩ := hstyle.news
  refine ⟨kept₂, _, leftOf styleName styleAsked (leftOf className classAsked made) ++ classes ++ styles, by simp,
    hsplits₁.trans hsplits₂, ?_, ?_, ?_, ?_, ?_, ?_⟩
  · intro a ha
    rcases List.mem_append.1 ha with ha | ha
    · exact Or.inr (hnamed₂ a ha)
    · exact Or.inl (hnamed₁ a ha)
  · rw [List.countP_append, countP_eq_zero_of_named hne.symm hnamed₂, List.countP_eq_length.2 hnamed₁, hlength₁,
      Nat.zero_add]
  · have hkept₁ : kept₁.countP (isNamed styleName) = kept.countP (isNamed styleName) := by
      rw [hsplits₁.countP (isNamed styleName), countP_eq_zero_of_named hne hnamed₁, Nat.add_zero]
    rw [List.countP_append, countP_eq_zero_of_named hne hnamed₁, List.countP_eq_length.2 hnamed₂, hlength₂, hkept₁,
      hleft, Nat.add_zero]
  · intro a ha
    rw [List.mem_append, List.mem_append] at ha
    rcases ha with (ha | ha) | ha
    · exact hmade a (mem_of_mem_leftOf (mem_of_mem_leftOf ha))
    · obtain ⟨e, he⟩ := hclassMade a ha
      exact ⟨e, Or.inl he⟩
    · obtain ⟨e, he⟩ := hstyleMade a ha
      exact ⟨e, Or.inr he⟩
  · rw [List.countP_append, List.countP_append, countP_leftOf_other hne.symm, countP_leftOf,
      List.countP_eq_length.2 hclassNamed, countP_eq_zero_of_named hne.symm hstyleNamed, hclassCount]
    split <;> simp
  · rw [List.countP_append, List.countP_append, countP_leftOf, hleft, countP_eq_zero_of_named hne hclassNamed,
      List.countP_eq_length.2 hstyleNamed, hstyleCount]
    split <;> simp

/-! ## Markers -/

theorem isEmpty_classSegments (as : List Attribute) : (classSegments as).isEmpty = !as.any marksClass := by
  induction as with
  | nil => rfl
  | cons a rest ih =>
    unfold classSegments at ih ⊢
    have hmarks : marksClass a = (a.name?.bind markedClass?).isSome := rfl
    rw [List.filterMap_cons, List.any_cons, hmarks]
    cases a.name?.bind markedClass? with
    | none => simpa using ih
    | some name => rfl

theorem isEmpty_styleEntries {as : List Attribute} {entries : List (Text × Node)} (h : styleEntries as = .ok entries) :
    entries.isEmpty = !as.any marksStyle := by
  induction as generalizing entries with
  | nil => cases h; rfl
  | cons a rest ih =>
    rw [styleEntries] at h
    rcases hentry : styleEntry? a with e | entry
    · rw [hentry] at h
      cases h
    · rcases hrest : styleEntries rest with e | more
      · rw [hentry, hrest] at h
        cases h
      · rw [hentry, hrest] at h
        cases h
        rw [List.any_cons, marksStyle]
        rcases styleEntry?_cases hentry with ⟨hnone, rfl⟩ | ⟨hsome, p, rfl, _⟩
        · simpa [hnone] using ih hrest
        · simp [hsome]

/-- what markers do to a row of old attributes with a row of made ones behind it -/
structure MarkersTake (kept made kept' removed made' : List Attribute) : Prop where
  splits : Splits kept kept' removed
  stays : ∀ a ∈ kept', isMarker a = false
  taken : ∀ a ∈ removed, isMarker a = true ∨ isNamed className a = true ∨ isNamed styleName a = true
  classes : removed.countP (isNamed className) =
    if kept.any marksClass = true ∧ made.countP (isNamed className) = 0 then min 1 (kept.countP (isNamed className))
    else 0
  styles : removed.countP (isNamed styleName) =
    if kept.any marksStyle = true ∧ made.countP (isNamed styleName) = 0 then min 1 (kept.countP (isNamed styleName))
    else 0
  areMade : ∀ a ∈ made', IsMade a
  madeClasses : made'.countP (isNamed className) =
    if kept.any marksClass then 1 else made.countP (isNamed className)
  madeStyles : made'.countP (isNamed styleName) = if kept.any marksStyle then 1 else made.countP (isNamed styleName)

/-- the markers are taken out before a class and a style are merged -/
theorem MergeTakes.markers {kept made kept' removed made' : List Attribute}
    (h : MergeTakes (kept.any marksClass) (kept.any marksStyle) (kept.filter fun a => !isMarker a) made kept' removed
      made') : MarkersTake kept made kept' (removed ++ kept.filter isMarker) made' := by
  have hmarkers : ∀ a ∈ kept.filter isMarker, isMarker a = true := fun a ha => (List.mem_filter.1 ha).2
  refine ⟨(Splits.filter isMarker kept).trans h.splits, ?_, ?_, ?_, ?_, h.areMade, h.madeClasses, h.madeStyles⟩
  · intro a ha
    simpa using (List.mem_filter.1 (h.splits.order.subset ha)).2
  · intro a ha
    rcases List.mem_append.1 ha with ha | ha
    · exact Or.inr (h.taken a ha)
    · exact Or.inl (hmarkers a ha)
  · rw [List.countP_append, countP_markers (Or.inl rfl) hmarkers, h.classes, countP_filter_isMarker (Or.inl rfl),
      Nat.add_zero]
  · rw [List.countP_append, countP_markers (Or.inr rfl) hmarkers, h.styles, countP_filter_isMarker (Or.inr rfl),
      Nat.add_zero]

/-- **What markers take.** Out of the old row they take themselves, and a class or a style if the made row has none. -/
theorem rewriteMarkers_takes {element : Text} {kept made : List Attribute} {markers : Option (List Attribute)}
    (hmade : ∀ a ∈ made, IsMade a) (hclasses : made.countP (isNamed className) ≤ 1)
    (hstyles : made.countP (isNamed styleName) ≤ 1) (h : rewriteMarkers element (kept ++ made) = .ok markers) :
    ∃ kept' removed made', markers.getD (kept ++ made) = kept' ++ made' ∧
      MarkersTake kept made kept' removed made' := by
  have hmarker : ∀ a ∈ made, isMarker a = false := fun a ha => (hmade a ha).not_isMarker
  obtain ⟨hmadeClass, hmadeStyle⟩ := any_marks_of_not_isMarker hmarker
  rcases rewriteMarkers_ok h with ⟨rfl, hnone⟩ |
    ⟨_, entries, middle, classes, others, styles, hentries, hclass, hstyle, rfl⟩
  · have hkept : ∀ a ∈ kept, isMarker a = false := fun a ha => hnone a (List.mem_append_left _ ha)
    obtain ⟨hnoClass, hnoStyle⟩ := any_marks_of_not_isMarker hkept
    exact ⟨kept, [], made, rfl, .refl kept, hkept, by simp, by simp [hnoClass], by simp [hnoStyle], hmade,
      by simp [hnoClass], by simp [hnoStyle]⟩
  · have hfilter : ((kept ++ made).filter fun a => !isMarker a) = (kept.filter fun a => !isMarker a) ++ made := by
      have : (made.filter fun a => !isMarker a) = made := List.filter_eq_self.2 fun a ha => by simp [hmarker a ha]
      rw [List.filter_append, this]
    have hmergeClass := mergeClass_mergesLast (classSegments (kept ++ made))
      ((kept ++ made).filter fun a => !isMarker a)
    have hmergeStyle := mergeStyle_mergesLast hstyle
    rw [hclass, isEmpty_classSegments, List.any_append, hmadeClass, Bool.or_false, Bool.not_not, hfilter] at hmergeClass
    rw [isEmpty_styleEntries hentries, List.any_append, hmadeStyle, Bool.or_false, Bool.not_not] at hmergeStyle
    obtain ⟨kept', removed, made', hresult, htakes⟩ := hmergeClass.both hmergeStyle hmade hclasses hstyles
    exact ⟨kept', _, made', hresult, htakes.markers⟩

/-! ## Chains -/

theorem not_isNamed_of_isChain {name : Text} (h : settings.isChainAttribute name = false) {a : Attribute}
    (hchain : isChain settings a = true) : isNamed name a = false := by
  rw [← Bool.not_eq_true, isNamed_iff]
  intro hname
  rw [isChain, hname, Option.any_some, h] at hchain
  cases hchain

theorem countP_find? (p : Attribute → Bool) (as : List Attribute) :
    (as.find? p).toList.countP p = min 1 (as.countP p) := by
  induction as with
  | nil => rfl
  | cons a rest ih =>
    rw [List.find?_cons, List.countP_cons]
    cases hp : p a with
    | true => simp [hp]
    | false => simpa [hp] using ih

/-- what a chain does to a row of attributes that has one -/
structure ChainTakes (settings : Settings) (as kept removed made : List Attribute) : Prop where
  splits : Splits as kept removed
  stays : ∀ a ∈ kept, isChain settings a = false
  taken : ∀ a ∈ removed, isChain settings a = true ∨ isNamed className a = true
  classes : removed.countP (isNamed className) = min 1 (as.countP (isNamed className))
  apart : as.countP (isNamed styleName) = 0
  areMade : ∀ a ∈ made, IsMade a
  madeClasses : made.countP (isNamed className) = 1
  madeStyles : made.countP (isNamed styleName) ≤ 1

/-- **What a chain takes.** It takes itself and the first class, and makes a class and perhaps a style. -/
theorem rewriteChain_takes (hapart : ChainsApart settings) {element : Text} {as : List Attribute}
    {chain : Option (List Attribute)} (h : Ends (rewriteChain settings language element as) before chain after) :
    (chain = none ∧ as.any (isChain settings) = false) ∨
      (as.any (isChain settings) = true ∧ ∃ kept removed made, chain = some (kept ++ made) ∧
        ChainTakes settings as kept removed made) := by
  rcases rewriteChain_ends h with ⟨rfl, _, hnone⟩ | ⟨a, source, compiled, merged, rfl, hone, hnostyle, _, _, hmerge, _⟩
  · refine Or.inl ⟨rfl, ?_⟩
    simpa [List.filter_eq_nil_iff] using hnone
  have hmem : a ∈ as.filter (isChain settings) := by rw [hone]; exact List.mem_singleton_self a
  obtain ⟨ha, hchain⟩ := List.mem_filter.1 hmem
  have hfound : as.find? (isChain settings) = some a := find?_of_filter hone
  have hothers : (as.eraseP (isChain settings)).filter (isChain settings) = [] := by rw [filter_eraseP, hone]; rfl
  have hnotClass := not_isNamed_of_isChain hapart.1 hchain
  have hchainSplits := Splits.eraseP (isChain settings) as
  have hclassSplits := Splits.eraseP (isNamed className) (as.eraseP (isChain settings))
  rw [hfound, Option.toList_some] at hchainSplits
  have hclassCount := hchainSplits.countP (isNamed className)
  rw [List.countP_cons_of_neg (by simp [hnotClass]), List.countP_nil, Nat.add_zero] at hclassCount
  obtain ⟨classes, styles, rfl, _, hstyles⟩ := mergeCompiled_ok hmerge
  have hmadeStyle : ∀ b ∈ styles, ∃ e, b = expressionAttribute styleName e := by
    rcases hstyles with ⟨_, rfl⟩ | ⟨_, e, _, _, rfl⟩
    · simp
    · exact fun b hb => ⟨e, List.mem_singleton.1 hb⟩
  have hstyleNamed : ∀ b ∈ styles, isNamed styleName b = true := fun b hb => by
    obtain ⟨e, rfl⟩ := hmadeStyle b hb
    exact isNamed_iff.2 rfl
  have hclassNamed : isNamed className (expressionAttribute className classes) = true := isNamed_iff.2 rfl
  refine Or.inr ⟨List.any_eq_true.2 ⟨a, ha, hchain⟩, _, _, _, rfl, hchainSplits.trans hclassSplits, ?_, ?_, ?_, ?_, ?_,
    ?_, ?_⟩
  · intro b hb
    simpa using List.filter_eq_nil_iff.1 hothers b (List.mem_of_mem_eraseP hb)
  · intro b hb
    rcases List.mem_append.1 hb with hb | hb
    · exact Or.inr (List.find?_some (Option.mem_toList.1 hb))
    · rw [List.mem_singleton.1 hb]
      exact Or.inl hchain
  · rw [List.countP_append, countP_find?, List.countP_cons_of_neg (by simp [hnotClass]), List.countP_nil, hclassCount,
      Nat.add_zero]
  · rw [List.countP_eq_zero]
    exact fun b hb => by simpa using List.any_eq_false.1 hnostyle b hb
  · intro b hb
    rcases List.mem_cons.1 hb with rfl | hb
    · exact ⟨classes, Or.inl rfl⟩
    · obtain ⟨e, he⟩ := hmadeStyle b hb
      exact ⟨e, Or.inr he⟩
  · rw [List.countP_cons_of_pos hclassNamed, countP_eq_zero_of_named className_ne_styleName.symm hstyleNamed]
  · rw [List.countP_cons_of_neg (by simp [isNamed_ne className_ne_styleName hclassNamed])]
    rcases hstyles with ⟨_, rfl⟩ | ⟨_, e, _, _, rfl⟩
    · simp
    · exact List.countP_le_length

/-! ## Both together -/

/-- whether a chain or a marker asks for a class -/
def asksClass (settings : Settings) (as : List Attribute) : Bool := as.any (isChain settings) || as.any marksClass

/-- what a rewrite does to the attributes of an element -/
structure Conserves (settings : Settings) (as kept removed made : List Attribute) : Prop where
  /-- the kept attributes are in their order, and no attribute is lost or doubled -/
  splits : Splits as kept removed
  /-- all shorthand is taken out -/
  stays : ∀ a ∈ kept, isShorthand settings a = false
  /-- and nothing else but classes and styles -/
  taken : ∀ a ∈ removed, isShorthand settings a = true ∨ isNamed className a = true ∨ isNamed styleName a = true
  /-- one class, if one is asked for and there is any -/
  classes : removed.countP (isNamed className) =
    if asksClass settings as then min 1 (as.countP (isNamed className)) else 0
  /-- one style, if one is asked for and there is any -/
  styles : removed.countP (isNamed styleName) = if as.any marksStyle then min 1 (as.countP (isNamed styleName)) else 0
  areMade : ∀ a ∈ made, IsMade a
  madeClasses : made.countP (isNamed className) = if asksClass settings as then 1 else 0
  madeStyles : made.countP (isNamed styleName) ≤ 1
  /-- a chain comes without styles; without a chain a style is made for markers only -/
  apart : as.countP (isNamed styleName) = 0 ∨
    made.countP (isNamed styleName) = if as.any marksStyle then 1 else 0

namespace Conserves

variable {as kept removed made : List Attribute}

/-- attributes without a name are not taken out -/
theorem not_spread (h : Conserves settings as kept removed made) (e : Node) : Attribute.spread e ∉ removed := by
  intro hmem
  rcases h.taken _ hmem with hshorthand | hnamed | hnamed
  · cases hshorthand
  · cases isNamed_iff.1 hnamed
  · cases isNamed_iff.1 hnamed

theorem countP_class_le (h : Conserves settings as kept removed made) (hone : as.countP (isNamed className) ≤ 1) :
    (kept ++ made).countP (isNamed className) ≤ 1 := by
  have hsplits := h.splits.countP (isNamed className)
  have hremoved := h.classes
  have hmade := h.madeClasses
  rw [List.countP_append]
  cases hasked : asksClass settings as with
  | true =>
    rw [hasked, if_pos rfl] at hremoved hmade
    omega
  | false =>
    rw [hasked, if_neg Bool.false_ne_true] at hremoved hmade
    omega

theorem countP_style_le (h : Conserves settings as kept removed made) (hone : as.countP (isNamed styleName) ≤ 1) :
    (kept ++ made).countP (isNamed styleName) ≤ 1 := by
  have hsplits := h.splits.countP (isNamed styleName)
  have hremoved := h.styles
  have hmade := h.madeStyles
  rw [List.countP_append]
  rcases h.apart with hnone | hmade
  · omega
  · cases hasked : as.any marksStyle with
    | true =>
      rw [hasked, if_pos rfl] at hremoved hmade
      omega
    | false =>
      rw [hasked, if_neg Bool.false_ne_true] at hremoved hmade
      omega

end Conserves

theorem isShorthand_of_isMarker {a : Attribute} (h : isMarker a = true) : isShorthand settings a = true := by
  rw [isShorthand, h, Bool.true_or]

theorem isShorthand_of_isChain {a : Attribute} (h : isChain settings a = true) : isShorthand settings a = true := by
  rw [isShorthand, h, Bool.or_true]

/-- without a chain, what markers take is all that is taken -/
theorem MarkersTake.conserves {as kept removed made : List Attribute} (h : MarkersTake as [] kept removed made)
    (hnone : as.any (isChain settings) = false) : Conserves settings as kept removed made where
  splits := h.splits
  stays a ha := by
    rw [isShorthand, h.stays a ha, Bool.false_or]
    simpa using List.any_eq_false.1 hnone a (h.splits.order.subset ha)
  taken a ha := (h.taken a ha).imp_left isShorthand_of_isMarker
  classes := by simpa [asksClass, hnone] using h.classes
  styles := by simpa using h.styles
  areMade := h.areMade
  madeClasses := by simpa [asksClass, hnone] using h.madeClasses
  madeStyles := by
    rw [h.madeStyles]
    split <;> simp
  apart := Or.inr (by simpa using h.madeStyles)

/-- the class is taken by the chain, so markers leave the others; there is no style to take -/
theorem ChainTakes.conserves {as kept removed made kept' removed' made' : List Attribute}
    (h : ChainTakes settings as kept removed made) (hsome : as.any (isChain settings) = true)
    (h' : MarkersTake kept made kept' removed' made') : Conserves settings as kept' (removed' ++ removed) made' := by
  have hasked : asksClass settings as = true := by rw [asksClass, hsome, Bool.true_or]
  have hsplits := h.splits.trans h'.splits
  have hnostyle := hsplits.countP (isNamed styleName)
  rw [h.apart] at hnostyle
  refine ⟨hsplits, ?_, ?_, ?_, ?_, h'.areMade, ?_, ?_, Or.inl h.apart⟩
  · intro a ha
    rw [isShorthand, h'.stays a ha, h.stays a (h'.splits.order.subset ha)]; rfl
  · intro a ha
    rcases List.mem_append.1 ha with ha | ha
    · exact (h'.taken a ha).imp_left isShorthand_of_isMarker
    · exact (h.taken a ha).imp isShorthand_of_isChain Or.inl
  · have htaken := h'.classes
    rw [h.madeClasses, if_neg (by omega)] at htaken
    rw [List.countP_append, htaken, h.classes, hasked, if_pos rfl, Nat.zero_add]
  · rw [h.apart]
    split <;> omega
  · rw [h'.madeClasses, h.madeClasses, hasked]
    split <;> rfl
  · rw [h'.madeStyles]
    have := h.madeStyles
    split <;> omega

/-- the attributes of an element that is no component are conserved -/
theorem rewriteAttributes_takes (hapart : ChainsApart settings) {tag : TagName} (hintrinsic : tag.isIntrinsic = true)
    {as result : List Attribute} (h : Ends (rewriteAttributes settings language tag as) before result after) :
    ∃ kept removed made, result = kept ++ made ∧ Conserves settings as kept removed made := by
  rcases rewriteAttributes_ends h with ⟨hcomponent, _, _⟩ | ⟨_, chain, mid, markers, hchain, hmarkers, rfl, _⟩
  · rw [hintrinsic] at hcomponent
    cases hcomponent
  rcases rewriteChain_takes hapart hchain with ⟨rfl, hnone⟩ | ⟨hsome, kept, removed, made, rfl, htakes⟩
  · rw [← List.append_nil as] at hmarkers
    obtain ⟨kept, removed, made, hresult, hm⟩ := rewriteMarkers_takes (by simp) (by simp) (by simp) hmarkers
    rw [List.append_nil] at hresult
    exact ⟨kept, removed, made, hresult, hm.conserves hnone⟩
  · obtain ⟨kept', removed', made', hresult, hm⟩ := rewriteMarkers_takes htakes.areMade
      (Nat.le_of_eq htakes.madeClasses) htakes.madeStyles hmarkers
    exact ⟨kept', removed' ++ removed, made', hresult, htakes.conserves hsome hm⟩

/-- **Attributes are conserved.** A rewrite of an element that is no component keeps its attributes, untouched and in
order, up to its shorthand, one class if one is asked for, and one style if one is asked for; no spread is taken out.
What it makes stands behind them. No shorthand is left, so rewriting again does nothing, and an element with at most one
class and at most one style still has at most one of each. -/
theorem rewriteAttributes_conserves (hapart : ChainsApart settings) {tag : TagName}
    (hintrinsic : tag.isIntrinsic = true) {as result : List Attribute}
    (h : Ends (rewriteAttributes settings language tag as) before result after) :
    (∃ kept removed made, result = kept ++ made ∧ Conserves settings as kept removed made ∧
        ∀ e, Attribute.spread e ∉ removed) ∧
      (∀ a ∈ result, isShorthand settings a = false) ∧
      (∀ trace, Ends (rewriteAttributes settings language tag result) trace result trace) ∧
      (as.countP (isNamed className) ≤ 1 → result.countP (isNamed className) ≤ 1) ∧
      (as.countP (isNamed styleName) ≤ 1 → result.countP (isNamed styleName) ≤ 1) := by
  obtain ⟨kept, removed, made, rfl, hconserves⟩ := rewriteAttributes_takes hapart hintrinsic h
  have hsettled : IsSettled settings ⟨tag, kept ++ made⟩ := by
    rcases rewriteAttributes_cases hapart h with ⟨hsettled, hsame, _⟩ | ⟨_, hsettled, _⟩
    · rwa [hsame]
    · exact hsettled
  exact ⟨⟨kept, removed, made, rfl, hconserves, hconserves.not_spread⟩, hsettled hintrinsic,
    rewriteAttributes_settled hsettled, hconserves.countP_class_le, hconserves.countP_style_le⟩

/-- settings with one class and one chain attribute -/
def smallSettings : Settings where
  vocabulary := ⟨.ofList [("bold".toList, [])], .empty⟩
  root := "SS".toList
  chainAttributes := ["ss".toList]
  mergeFunction := "clsx".toList
  iconEscapes := []

/-- attributes of all kinds: two classes, a chain, markers, a namespaced one, a spread and a plain one -/
def mixedAttributes : List Attribute :=
  [.named "class".toList (.quoted "'a'".toList), .named "$on".toList .missing, .spread (.plain (.word "p".toList) []),
    .named "ss".toList (.braced (.plain (.word "SS".toList) []) "SS.bold".toList),
    .named "x:y".toList .missing, .named "$$color".toList (.quoted "'red'".toList),
    .named "class".toList (.quoted "'b'".toList), .named "id".toList (.quoted "'c'".toList)]

/-- of the attributes of all kinds the spread, two plain ones and the second class are kept -/
theorem rewriteAttributes_conserves_mixed :
    ∃ kept removed made after,
      Ends (rewriteAttributes smallSettings (Language.ofFile "a.tsx".toList) (.plain "p".toList) mixedAttributes) {}
        (kept ++ made) after ∧
      Conserves smallSettings mixedAttributes kept removed made ∧
      removed.countP (isNamed className) = 1 := by
  let run := (rewriteAttributes smallSettings (Language.ofFile "a.tsx".toList) (.plain "p".toList)
    mixedAttributes).run.run {}
  have hapart : ChainsApart smallSettings := ⟨by decide, by decide⟩
  have hok : run.1.isOk = true := by decide +kernel
  rcases hrun : run with ⟨e | result, after⟩
  · rw [hrun] at hok
    cases hok
  obtain ⟨⟨kept, removed, made, rfl, hconserves, _⟩, _⟩ :=
    rewriteAttributes_conserves hapart rfl hrun
  have hremoved : removed.countP (isNamed className) = 1 := by
    rw [hconserves.classes]
    decide
  exact ⟨kept, removed, made, after, hrun, hconserves, hremoved⟩

end TerseStyle.Rewrite

/-
Markers move elements. The values of markers, and of the class and style that they are merged with, are moved into the
new class and style as trees: an element that was somewhere in the attributes is there again, none is lost and none is
made.

Results:
- `mem_openings_classTemplate`, `mem_openings_styleObject`: what is in a template or an object that a rewrite makes.
- `rewriteMarkers_cases`: what markers become, and that the elements in the attributes stay the same.
-/
import Mathlib.Data.List.Basic
import TerseStyle.Proofs.Rewrite.Settled
import TerseStyle.Rewrite.Marker

namespace TerseStyle.Rewrite

open Script

variable {o : Opening}

/-! ## Elements of rows -/

theorem mem_openingsAll {es : List Node} : o ∈ Node.openingsAll es ↔ ∃ e ∈ es, o ∈ e.openings := by
  induction es with
  | nil => simp [Node.openingsAll]
  | cons e es ih => simp [Node.openingsAll, ih]

theorem mem_openingsInside {as : List Attribute} : o ∈ Attribute.openingsAll as ↔ ∃ a ∈ as, o ∈ a.openings := by
  induction as with
  | nil => simp [Attribute.openingsAll]
  | cons a as ih => simp [Attribute.openingsAll, ih]

theorem openingsInside_append (as bs : List Attribute) :
    Attribute.openingsAll (as ++ bs) = Attribute.openingsAll as ++ Attribute.openingsAll bs := by
  induction as with
  | nil => rfl
  | cons a as ih => simp [Attribute.openingsAll, ih]

theorem openings_of_name {a : Attribute} {name : Text} (h : a.name? = some name) : a.openings = a.value.openings := by
  cases a with
  | spread e => cases h
  | named _ value => rfl

theorem openings_expressionAttribute (name : Text) (e : Node) : (expressionAttribute name e).openings = e.openings :=
  rfl

/-! ## Values -/

/-- the elements in what a value gives -/
def Given.openings : Given → List Opening
  | nothing => []
  | expression e => e.openings
  | text _ => []

theorem openings_given (v : Value) : (given v).openings = v.openings := by
  cases v <;> rfl

theorem openings_stringLiteral (t : Text) : (stringLiteral t).openings = [] := rfl

/-- the expression of a marker's value has the elements of the value -/
theorem mem_openings_markerExpression {v : Value} :
    o ∈ v.openings ↔ ∃ e, markerExpression? v = some e ∧ o ∈ e.openings := by
  unfold markerExpression?
  rw [← openings_given]
  cases given v with
  | nothing => simp [Given.openings]
  | expression e => simp [Given.openings]
  | text t => simp [Given.openings, openings_stringLiteral]

/-! ## Class templates -/

/-- the elements in a part of a class template -/
def Segment.openings : Segment → List Opening
  | text _ => []
  | expression e => e.openings

theorem openings_conditionalClass (test : Node) (name : Text) :
    (conditionalClass test name).openings = test.openings := by
  simp [conditionalClass, Node.openings, Node.openingsAll, openings_stringLiteral]

/-- the elements in texts with expressions between them -/
def Interleaved.openings (i : Interleaved) : List Opening := Node.openingsAll (i.rest.map Prod.fst)

theorem openings_add (s : Segment) (i : Interleaved) : (i.add s).openings = s.openings ++ i.openings := by
  cases s <;> rfl

/-- the elements of a class template are those of its segments -/
theorem mem_openings_classTemplate {segments : List Segment} :
    o ∈ (classTemplate segments).openings ↔ ∃ s ∈ segments, o ∈ s.openings := by
  change o ∈ (Interleaved.ofSegments segments).openings ↔ _
  induction segments with
  | nil => simp [Interleaved.ofSegments, Interleaved.openings, Node.openingsAll]
  | cons s rest ih =>
    cases rest with
    | nil =>
      rw [Interleaved.ofSegments, openings_add]
      simp [Interleaved.openings, Node.openingsAll]
    | cons t more =>
      have hspace (i : Interleaved) : (i.addText [' ']).openings = i.openings := rfl
      rw [Interleaved.ofSegments, openings_add, hspace, List.mem_append, ih]
      · simp only [List.mem_cons, exists_eq_or_imp]
      · intro h
        cases h

/-! ## Style objects -/

theorem openings_styleKey (name : Text) : (styleKey name).openings = [] := by
  unfold styleKey
  split <;> rfl

/-- the elements of a style object are those of the object taken over and of the values of its entries -/
theorem mem_openings_styleObject {base : Option Node} {entries : List (Text × Node)} :
    o ∈ (styleObject base entries).openings ↔
      (∃ e, base = some e ∧ o ∈ e.openings) ∨ ∃ p ∈ entries, o ∈ p.2.openings := by
  unfold styleObject
  rw [Node.openings, mem_openingsAll]
  simp only [List.mem_append, Option.mem_toList, Option.map_eq_some_iff, List.mem_map]
  constructor
  · intro h
    rcases h with ⟨_, ⟨e, he, rfl⟩ | ⟨p, hp, rfl⟩, ho⟩
    · exact Or.inl ⟨e, he, by simpa [Node.openings, Node.openingsAll] using ho⟩
    · exact Or.inr ⟨p, hp, by simpa [Node.openings, Node.openingsAll, openings_styleKey] using ho⟩
  · intro h
    rcases h with ⟨e, he, ho⟩ | ⟨p, hp, ho⟩
    · exact ⟨_, Or.inl ⟨e, he, rfl⟩, by simpa [Node.openings, Node.openingsAll] using ho⟩
    · exact ⟨_, Or.inr ⟨p, hp, rfl⟩, by simpa [Node.openings, Node.openingsAll, openings_styleKey] using ho⟩

/-! ## Markers -/

/-- the class name that an attribute marks -/
def attributeClass? (a : Attribute) : Option Text := a.name?.bind markedClass?

/-- the property that an attribute marks -/
def attributeProperty? (a : Attribute) : Option Text := a.name?.bind styleProperty?

/-- a marker is one of a class or one of a style property -/
theorem isMarker_iff (a : Attribute) :
    isMarker a = true ↔ (attributeClass? a).isSome = true ∨ (attributeProperty? a).isSome = true := by
  unfold isMarker attributeClass? attributeProperty?
  cases a.name? with
  | none => simp
  | some name =>
    simp only [Option.any_some, Option.bind_some, markedClass?, styleProperty?,
      List.isSome_isPrefixOf?_eq_isPrefixOf]
    cases hstyle : styleMarker.isPrefixOf name with
    | false => simp [List.isSome_isPrefixOf?_eq_isPrefixOf]
    | true =>
      rw [List.isPrefixOf_iff_prefix] at hstyle
      have hclass : classMarker <+: name := List.IsPrefix.trans (by decide) hstyle
      simpa using hclass

/-- the elements in attributes are those in the ones that stay, in class markers and in style markers -/
theorem mem_openingsInside_markers {as : List Attribute} :
    o ∈ Attribute.openingsAll as ↔ o ∈ Attribute.openingsAll (as.filter fun a => !isMarker a) ∨
      (∃ a ∈ as, (attributeClass? a).isSome = true ∧ o ∈ a.openings) ∨
      ∃ a ∈ as, (attributeProperty? a).isSome = true ∧ o ∈ a.openings := by
  rw [mem_openingsInside, mem_openingsInside]
  constructor
  · intro h
    obtain ⟨a, ha, ho⟩ := h
    by_cases hmarker : isMarker a = true
    · rcases (isMarker_iff a).1 hmarker with hclass | hproperty
      · exact Or.inr (Or.inl ⟨a, ha, hclass, ho⟩)
      · exact Or.inr (Or.inr ⟨a, ha, hproperty, ho⟩)
    · exact Or.inl ⟨a, List.mem_filter.2 ⟨ha, by simpa using hmarker⟩, ho⟩
  · intro h
    rcases h with ⟨a, ha, ho⟩ | ⟨a, ha, _, ho⟩ | ⟨a, ha, _, ho⟩
    · exact ⟨a, (List.mem_filter.1 ha).1, ho⟩
    · exact ⟨a, ha, ho⟩
    · exact ⟨a, ha, ho⟩

/-- the elements in the class segments are those in the class markers -/
theorem mem_classSegments {as : List Attribute} :
    (∃ s ∈ classSegments as, o ∈ s.openings) ↔ ∃ a ∈ as, (attributeClass? a).isSome = true ∧ o ∈ a.openings := by
  induction as with
  | nil => simp [classSegments]
  | cons a rest ih =>
    unfold classSegments at ih ⊢
    rw [List.filterMap_cons]
    cases hclass : attributeClass? a with
    | none =>
      have hbind : a.name?.bind markedClass? = none := hclass
      simp only [hbind, Option.map_none, List.mem_cons, exists_eq_or_imp, hclass, Option.isSome_none,
        Bool.false_eq_true, false_and, false_or]
      exact ih
    | some className =>
      have hbind : a.name?.bind markedClass? = some className := hclass
      obtain ⟨name, hname, _⟩ := Option.bind_eq_some_iff.1 hbind
      simp only [hbind, Option.map_some, List.mem_cons, exists_eq_or_imp, ih, hclass, Option.isSome_some, true_and]
      refine or_congr_left ?_
      rw [openings_of_name hname, mem_openings_markerExpression]
      cases markerExpression? a.value with
      | none => simp [Segment.openings]
      | some test => simp [Segment.openings, openings_conditionalClass]

/-- an attribute that marks a property has an entry, with the elements of its value, and no other has one -/
theorem styleEntry?_cases {a : Attribute} {entry : Option (Text × Node)} (h : styleEntry? a = .ok entry) :
    (attributeProperty? a = none ∧ entry = none) ∨
      (attributeProperty? a).isSome = true ∧ ∃ p, entry = some p ∧ ∀ o, o ∈ p.2.openings ↔ o ∈ a.openings := by
  unfold styleEntry? at h
  unfold attributeProperty?
  cases hname : a.name? with
  | none =>
    simp only [hname] at h
    cases h
    exact Or.inl ⟨rfl, rfl⟩
  | some name =>
    simp only [hname] at h
    cases hproperty : styleProperty? name with
    | none =>
      simp only [hproperty] at h
      cases h
      exact Or.inl ⟨by simpa using hproperty, rfl⟩
    | some property =>
      simp only [hproperty] at h
      cases hvalue : markerExpression? a.value with
      | none => simp [hvalue] at h
      | some e =>
        simp only [hvalue] at h
        cases h
        refine Or.inr ⟨by simp [hproperty], _, rfl, fun o => ?_⟩
        rw [openings_of_name hname, mem_openings_markerExpression, hvalue]
        simp

/-- the elements in the style entries are those in the style markers -/
theorem mem_styleEntries {as : List Attribute} {entries : List (Text × Node)} (h : styleEntries as = .ok entries) :
    (∃ p ∈ entries, o ∈ p.2.openings) ↔ ∃ a ∈ as, (attributeProperty? a).isSome = true ∧ o ∈ a.openings := by
  induction as generalizing entries with
  | nil =>
    cases h
    simp
  | cons a rest ih =>
    rw [styleEntries] at h
    rcases hentry : styleEntry? a with e | entry
    · rw [hentry] at h
      cases h
    · rcases hrest : styleEntries rest with e | more
      · rw [hentry, hrest] at h
        cases h
      · rw [hentry, hrest] at h
        cases h
        rcases styleEntry?_cases hentry with ⟨hnone, rfl⟩ | ⟨hsome, p, rfl, hp⟩
        · simp [ih hrest, hnone]
        · simp [ih hrest, hsome, hp]

/-! ## Merging -/

theorem mem_takeLast {name : Text} {as : List Attribute} {a : Attribute} :
    a ∈ as ↔ (takeLast name as).1 = some a ∨ a ∈ (takeLast name as).2 := by
  induction as with
  | nil => simp [takeLast]
  | cons b rest ih =>
    unfold takeLast
    rcases hrest : takeLast name rest with ⟨_ | found, others⟩
    · rw [hrest] at ih
      by_cases hnamed : isNamed name b = true <;> simp [hnamed, ih, eq_comm]
    · rw [hrest] at ih
      simp only [List.mem_cons, ih]
      tauto

theorem isNamed_takeLast {name : Text} {as : List Attribute} {a : Attribute} (h : (takeLast name as).1 = some a) :
    isNamed name a = true := by
  induction as with
  | nil => cases h
  | cons b rest ih =>
    unfold takeLast at h
    rcases hrest : takeLast name rest with ⟨_ | found, others⟩
    · rw [hrest] at h
      by_cases hnamed : isNamed name b = true
      · simp only [hnamed, if_true, Option.some.injEq] at h
        exact h ▸ hnamed
      · simp [hnamed] at h
    · rw [hrest] at h ih
      exact ih h

theorem isNamed_iff {name : Text} {a : Attribute} : isNamed name a = true ↔ a.name? = some name := by
  unfold isNamed
  rw [decide_eq_true_iff]

/-- the segment of an attribute that was there before has its elements -/
theorem mem_existingSegments {a : Attribute} {name : Text} (h : isNamed name a = true) :
    (∃ s ∈ existingSegments (some a), o ∈ s.openings) ↔ o ∈ a.openings := by
  rw [openings_of_name (isNamed_iff.1 h), ← openings_given]
  unfold existingSegments
  rw [Option.map_some]
  cases given a.value with
  | nothing => simp [Given.openings]
  | expression e => simp [Given.openings, Segment.openings]
  | text t => by_cases ht : Text.isBlankOnly t = true <;> simp [Given.openings, Segment.openings, ht]

/-- the object of an attribute that was there before has its elements -/
theorem mem_existingStyle {element : Text} {a : Attribute} {name : Text} {base : Option Node}
    (hname : isNamed name a = true) (h : existingStyle element (some a) = .ok base) :
    (∃ e, base = some e ∧ o ∈ e.openings) ↔ o ∈ a.openings := by
  rw [openings_of_name (isNamed_iff.1 hname), ← openings_given]
  unfold existingStyle at h
  rw [Option.map_some] at h
  cases hgiven : given a.value with
  | nothing => rw [hgiven] at h; cases h; simp [Given.openings]
  | expression e => rw [hgiven] at h; cases h; simp [Given.openings]
  | text t => rw [hgiven] at h; cases h

/-- what merging does with attributes: some of them stay, a new one of a name may come, and the elements in both are
those in the attributes before and some others -/
structure Merges (name : Text) (added : Opening → Prop) (as others news : List Attribute) : Prop where
  kept : ∀ a ∈ others, a ∈ as
  named : ∀ a ∈ news, isNamed name a = true
  elements : ∀ o, (o ∈ Attribute.openingsAll others ∨ o ∈ Attribute.openingsAll news) ↔
    (o ∈ Attribute.openingsAll as ∨ added o)

theorem merges_nothing {name : Text} {added : Opening → Prop} (h : ∀ o, ¬ added o) (as : List Attribute) :
    Merges name added as as [] where
  kept := fun _ ha => ha
  named := by simp
  elements := fun o => by simp [Attribute.openingsAll, h o]

/-- one attribute is taken out, and a new one holds its elements and the others added -/
theorem merges_takeLast {name : Text} {added : Opening → Prop} {as : List Attribute} {e : Node}
    (h : ∀ o, o ∈ e.openings ↔ (∃ a, (takeLast name as).1 = some a ∧ o ∈ a.openings) ∨ added o) :
    Merges name added as (takeLast name as).2 [expressionAttribute name e] where
  kept := fun _ ha => mem_takeLast.2 (Or.inr ha)
  named := by simp [isNamed, expressionAttribute, Attribute.name?]
  elements := fun o => by
    have hnew : o ∈ Attribute.openingsAll [expressionAttribute name e] ↔ o ∈ e.openings := by
      simp [Attribute.openingsAll, openings_expressionAttribute]
    have hbefore : o ∈ Attribute.openingsAll as ↔ (∃ a, (takeLast name as).1 = some a ∧ o ∈ a.openings) ∨
        o ∈ Attribute.openingsAll (takeLast name as).2 := by
      simp only [mem_openingsInside, @mem_takeLast name as, or_and_right, exists_or]
    calc o ∈ Attribute.openingsAll (takeLast name as).2 ∨ o ∈ Attribute.openingsAll [expressionAttribute name e]
        ↔ o ∈ Attribute.openingsAll (takeLast name as).2 ∨
            (∃ a, (takeLast name as).1 = some a ∧ o ∈ a.openings) ∨ added o := by rw [hnew, h]
      _ ↔ ((∃ a, (takeLast name as).1 = some a ∧ o ∈ a.openings) ∨ o ∈ Attribute.openingsAll (takeLast name as).2) ∨
            added o := by rw [or_assoc]; exact or_left_comm
      _ ↔ o ∈ Attribute.openingsAll as ∨ added o := by rw [hbefore]

theorem mergeClass_merges (segments : List Segment) (as : List Attribute) :
    Merges className (fun o => ∃ s ∈ segments, o ∈ s.openings) as (mergeClass segments as).1
      (mergeClass segments as).2 := by
  unfold mergeClass
  split
  · rename_i hnone
    rw [List.isEmpty_iff] at hnone
    subst hnone
    exact merges_nothing (by simp) as
  · refine merges_takeLast fun o => ?_
    rw [mem_openings_classTemplate]
    simp only [List.mem_append, or_and_right, exists_or]
    refine or_congr_left ?_
    rcases hexisting : (takeLast className as).1 with _ | a
    · simp [existingSegments]
    · rw [mem_existingSegments (isNamed_takeLast hexisting)]
      simp

theorem mergeStyle_merges {element : Text} {entries : List (Text × Node)} {as others news : List Attribute}
    (h : mergeStyle element entries as = .ok (others, news)) :
    Merges styleName (fun o => ∃ p ∈ entries, o ∈ p.2.openings) as others news := by
  unfold mergeStyle at h
  split at h
  · rename_i hnone
    rw [List.isEmpty_iff] at hnone
    subst hnone
    cases h
    exact merges_nothing (by simp) as
  · change (existingStyle element (takeLast styleName as).1 >>= fun base =>
      pure ((takeLast styleName as).2, [expressionAttribute styleName (styleObject base entries)])) = _ at h
    rcases hexisting : existingStyle element (takeLast styleName as).1 with e | base
    · rw [hexisting] at h
      cases h
    · rw [hexisting] at h
      cases h
      refine merges_takeLast fun o => ?_
      rw [mem_openings_styleObject]
      refine or_congr_left ?_
      rcases hfound : (takeLast styleName as).1 with _ | a
      · rw [hfound] at hexisting
        cases hexisting
        simp
      · rw [hfound] at hexisting
        rw [mem_existingStyle (isNamed_takeLast hfound) hexisting]
        simp

/-! ## All markers of an element -/

/-- attributes without markers are left alone; from others the markers are taken out, the class is merged with the class
markers and then the style with the entries of the style markers -/
theorem rewriteMarkers_ok {element : Text} {as : List Attribute} {result : Option (List Attribute)}
    (h : rewriteMarkers element as = .ok result) :
    (result = none ∧ ∀ a ∈ as, isMarker a = false) ∨
      (∃ a ∈ as, isMarker a = true) ∧ ∃ entries middle classes others styles, styleEntries as = .ok entries ∧
        mergeClass (classSegments as) (as.filter fun a => !isMarker a) = (middle, classes) ∧
        mergeStyle element entries middle = .ok (others, styles) ∧ result = some (others ++ classes ++ styles) := by
  unfold rewriteMarkers at h
  split at h
  · rename_i hnone
    cases h
    refine Or.inl ⟨rfl, ?_⟩
    simpa [hasMarkers] using hnone
  · rename_i hsome
    refine Or.inr ⟨by simpa [hasMarkers] using hsome, ?_⟩
    rcases hentries : styleEntries as with e | entries
    · rw [hentries] at h
      cases h
    · rw [hentries] at h
      rcases hclass : mergeClass (classSegments as) (as.filter fun a => !isMarker a) with ⟨middle, classes⟩
      change (mergeStyle element entries (mergeClass (classSegments as) (as.filter fun a => !isMarker a)).1 >>= fun r =>
        pure (some (r.1 ++ (mergeClass (classSegments as) (as.filter fun a => !isMarker a)).2 ++ r.2))) = _ at h
      rw [hclass] at h
      rcases hstyle : mergeStyle element entries middle with e | ⟨others, styles⟩
      · simp only [hstyle] at h
        cases h
      · simp only [hstyle] at h
        cases h
        exact ⟨entries, middle, classes, others, styles, rfl, rfl, hstyle, rfl⟩

/-- **Markers move elements.** Attributes without markers are left alone. Others lose their markers, get a class or a
style or both, and hold the same elements as before. -/
theorem rewriteMarkers_cases {element : Text} {as : List Attribute} {result : Option (List Attribute)}
    (h : rewriteMarkers element as = .ok result) :
    (result = none ∧ ∀ a ∈ as, isMarker a = false) ∨
      ∃ as', result = some as' ∧ (∃ a ∈ as, isMarker a = true) ∧
        (∀ a ∈ as', (a ∈ as ∧ isMarker a = false) ∨ isNamed className a = true ∨ isNamed styleName a = true) ∧
        ∀ o, o ∈ Attribute.openingsAll as' ↔ o ∈ Attribute.openingsAll as := by
  rcases rewriteMarkers_ok h with hnone |
    ⟨hsome, entries, middle, classes, others, styles, hentries, hmerged, hstyles, rfl⟩
  · exact Or.inl hnone
  have hclass := mergeClass_merges (classSegments as) (as.filter fun a => !isMarker a)
  rw [hmerged] at hclass
  have hstyle := mergeStyle_merges hstyles
  refine Or.inr ⟨_, rfl, hsome, ?_, ?_⟩
  · intro a ha
    rw [List.mem_append, List.mem_append] at ha
    rcases ha with (ha | ha) | ha
    · have hkept := List.mem_filter.1 (hclass.kept a (hstyle.kept a ha))
      exact Or.inl ⟨hkept.1, by simpa using hkept.2⟩
    · exact Or.inr (Or.inl (hclass.named a ha))
    · exact Or.inr (Or.inr (hstyle.named a ha))
  · intro o
    have hmiddle := hclass.elements o
    have houter := hstyle.elements o
    rw [mem_classSegments] at hmiddle
    rw [mem_styleEntries hentries] at houter
    -- first the style is unmerged, then the class
    rw [openingsInside_append, openingsInside_append, List.mem_append, List.mem_append, or_right_comm, houter,
      or_right_comm, hmiddle, @mem_openingsInside_markers o as, or_assoc]

end TerseStyle.Rewrite

/-
Values in quotes. What stands between the quotes of a merged class, of a condition or of a style value moves into a
template or an object as it was written: no character reference in it is replaced, and no backslash is read. So it says
there what it said in the attribute unless it has a reference, or, in a class, a carriage return.

Results:
- `evaluates_existing`: what the text of a class adds to a template.
- `ValueNode.evaluates_text`: what the node of a text gives.
- `rewriteMarkers_quoted`: which texts keep their values in the class and the style that markers become.
-/
import TerseStyle.Proofs.Rewrite.Meaning
import TerseStyle.Proofs.Script.References

namespace TerseStyle.Rewrite

open Script

variable {W : World} {a : Attribute} {as as' : List Attribute} {segments : List Segment} {t v s : Text}

/-! ## Class markers -/

/-- the segment of a class template that a class marker asks for: its name, under its value as a test -/
inductive SegmentOf (a : Attribute) : Segment → Prop
  | always {name : Text} : attributeClass? a = some name → given a.value = .nothing → SegmentOf a (.text name)
  | under {name : Text} {test : Node} : attributeClass? a = some name → ValueNode a test →
      SegmentOf a (.expression (conditionalClass test name))

theorem given_of_nothing (h : markerExpression? a.value = none) : given a.value = .nothing := by
  unfold markerExpression? at h
  cases hgiven : given a.value with
  | nothing => rfl
  | expression e => simp [hgiven] at h
  | text t => simp [hgiven] at h

theorem classSegments_of (as : List Attribute) :
    List.Forall₂ SegmentOf (as.filter marksClass) (classSegments as) := by
  induction as with
  | nil => exact .nil
  | cons a rest ih =>
    unfold classSegments at ih ⊢
    rw [List.filterMap_cons]
    cases hclass : attributeClass? a with
    | none =>
      have hbind : a.name?.bind markedClass? = none := hclass
      rw [List.filter_cons_of_neg (by simp [marksClass, hclass])]
      simpa only [hbind, Option.map_none] using ih
    | some name =>
      have hbind : a.name?.bind markedClass? = some name := hclass
      rw [List.filter_cons_of_pos (by simp [marksClass, hclass])]
      simp only [hbind, Option.map_some]
      refine .cons ?_ ih
      cases hvalue : markerExpression? a.value with
      | none => exact .always hclass (given_of_nothing hvalue)
      | some test => exact .under hclass (valueNode_of_expression hvalue)

/-! ## Texts of classes -/

/-- what the text of a class adds in front of the text of other segments -/
def addedText (t : Text) : Text := if Text.isBlankOnly t then [] else lineFeeds (Text.trim t) ++ [' ']

/-- the text of a class stands in front of what the other segments give -/
theorem evaluates_existing (hsome : segments ≠ []) (hgiven : given a.value = .text t) :
    Evaluates W (classTemplate (existingSegments (some a) ++ segments)) s ↔
      ∃ u, Evaluates W (classTemplate segments) u ∧ s = addedText t ++ u := by
  unfold existingSegments addedText
  simp only [Option.map_some, hgiven]
  cases hblank : Text.isBlankOnly t with
  | true => simp
  | false =>
    obtain ⟨segment, more, rfl⟩ := List.exists_cons_of_ne_nil hsome
    simp only [Bool.false_eq_true, if_false, List.singleton_append]
    rcases hothers : Interleaved.ofSegments (segment :: more) with ⟨first, rest⟩
    have htext : classTemplate (.text (Text.trim t) :: segment :: more) =
        (⟨Text.trim t ++ ' ' :: first, rest⟩ : Interleaved).template := by
      unfold classTemplate
      rw [Interleaved.ofSegments, hothers]
      · rfl
      · exact List.cons_ne_nil segment more
    have hfeeds : lineFeeds (Text.trim t ++ ' ' :: first) = lineFeeds (Text.trim t) ++ ' ' :: lineFeeds first := by
      rw [lineFeeds_append _ (by simp)]
      rfl
    unfold classTemplate at htext ⊢
    have hfirst (u : Text) : Evaluates W (⟨first, rest⟩ : Interleaved).template u ↔
        ∃ x, Evaluates W (⟨[], rest⟩ : Interleaved).template x ∧ u = lineFeeds first ++ x :=
      Interleaved.evaluates_first
    rw [htext, hothers, Interleaved.evaluates_first, hfeeds]
    simp only [hfirst]
    constructor
    · rintro ⟨u, hu, rfl⟩
      exact ⟨_, ⟨u, hu, rfl⟩, by simp⟩
    · rintro ⟨_, ⟨u, hu, rfl⟩, rfl⟩
      exact ⟨u, hu, by simp⟩

/-- a template of one text gives that text with line feeds at its line ends -/
theorem evaluates_classTemplate_text : Evaluates W (classTemplate [.text t]) s ↔ s = lineFeeds t := by
  have htext : classTemplate [.text t] = (⟨t ++ [], []⟩ : Interleaved).template := rfl
  rw [htext, List.append_nil, Interleaved.template_eq, evaluates_template_iff]
  constructor
  · intro h
    cases h with
    | last hcooked => exact hcooked.unique (cooked_escapeTemplate t)
  · rintro rfl
    exact .last (cooked_escapeTemplate t)

/-! ## Texts of conditions and styles -/

/-- the node of a text gives that text -/
theorem ValueNode.evaluates_text {node : Node} (h : ValueNode a node) (hgiven : given a.value = .text t) :
    Evaluates W node s ↔ s = t := by
  cases h with
  | expression hgiven' =>
    rw [hgiven] at hgiven'
    cases hgiven'
  | text hgiven' hvalue =>
    rw [hgiven] at hgiven'
    cases hgiven'
    exact evaluates_string_iff hvalue

/-! ## All markers of an element -/

/-- **Texts keep what was written.** Let the attributes of an element with markers be rewritten. A class marker with a
value becomes a conditional class with the value as its test, and a style marker an entry with its value. The node of a
value in quotes gives the text between these as it was written, and a merged class adds that text, without the blanks at
its ends and with line feeds at its line ends, to what the class markers give. So a condition and a style value keep
the value of their attribute where the text has no character reference, and only there; a class keeps it, but for the
blanks, where there is no carriage return either. -/
theorem rewriteMarkers_quoted {element : Text} (named : Text → Option Char)
    (h : rewriteMarkers element as = .ok (some as')) :
    ∃ others classes styles, as' = others ++ classes ++ styles ∧
      ((∃ a ∈ as, marksClass a = true) → ∃ segments,
        classes = [expressionAttribute className
          (classTemplate (existingSegments (lastNamed className as) ++ segments))] ∧
        List.Forall₂ SegmentOf (as.filter marksClass) segments ∧
        ∀ a t v, lastNamed className as = some a → given a.value = .text t → AttributeValue named t v →
          (∀ (W : World) s, Evaluates W (classTemplate (existingSegments (some a) ++ segments)) s ↔
            ∃ u, Evaluates W (classTemplate segments) u ∧ s = addedText t ++ u) ∧
          (lineFeeds (Text.trim t) = Text.trim v ↔ ¬ HasReference named t ∧ '\r' ∉ Text.trim t)) ∧
      ((∃ a ∈ as, marksStyle a = true) → ∃ entries,
        styles = [expressionAttribute styleName (.plain .object
          (((oldExpression? (lastNamed styleName as)).map fun e => .plain .spread [e]).toList ++ entries))] ∧
        List.Forall₂ EntryOf (as.filter marksStyle) entries) ∧
      ∀ a node t v, ValueNode a node → given a.value = .text t → AttributeValue named t v →
        ∀ W : World, (∀ s, Evaluates W node s ↔ s = t) ∧ (Evaluates W node v ↔ ¬ HasReference named t) := by
  rcases rewriteMarkers_ok h with ⟨hnone, _⟩ |
    ⟨_, entries, middle, classes, others, styles, hentries, hclass, hstyle, hresult⟩
  · cases hnone
  refine ⟨others, classes, styles, Option.some.inj hresult, fun hmarks => ?_, fun hmarks => ?_, ?_⟩
  · have hsome : (classSegments as).isEmpty = false := by
      rw [isEmpty_classSegments, List.any_eq_true.2 hmarks]
      rfl
    have hclasses := mergeClass_eq hsome (as.filter fun a => !isMarker a)
    unfold lastNamed at hclasses ⊢
    rw [hclass, filter_notMarker (Or.inl rfl)] at hclasses
    refine ⟨_, hclasses, classSegments_of as, fun a t v _ hgiven hvalue => ⟨fun W s => ?_, ?_⟩⟩
    · exact evaluates_existing (by simpa using hsome) hgiven
    · exact hvalue.lineFeeds_trim_eq_iff
  · have hsome : entries.isEmpty = false := by
      rw [isEmpty_styleEntries hentries, List.any_eq_true.2 hmarks]
      rfl
    have hlast : lastNamed styleName middle = lastNamed styleName as := by
      have hfilter := filter_mergeClass (classSegments as) (as.filter fun a => !isMarker a)
      rw [hclass, filter_notMarker (Or.inr rfl)] at hfilter
      exact congrArg List.getLast? hfilter
    have hstyles := mergeStyle_eq hstyle hsome
    rw [hlast] at hstyles
    exact ⟨entries.map entryNode, hstyles,
      List.forall₂_map_right_iff.2 ((styleEntries_ok hentries).imp fun _ _ => HasEntry.node)⟩
  · intro a node t v hnode hgiven hvalue W
    refine ⟨fun s => hnode.evaluates_text hgiven, ?_⟩
    rw [hnode.evaluates_text hgiven]
    exact hvalue.eq_iff

/-- a table with one name -/
def ampersandName (name : Text) : Option Char := if name = "amp".toList then some '&' else none

/-- a class with a reference, a class marker, and a style marker with a backslash in its value -/
def referenceAttributes : List Attribute :=
  [.named className (.quoted "' a&amp;b'".toList), .named "$bold".toList .missing,
    .named "$$content".toList (.quoted "'\\201C'".toList)]

/-- the class says something else behind the rewrite, and the style value what it said before -/
theorem rewriteMarkers_quoted_class :
    ∃ others template key node, rewriteMarkers "p".toList referenceAttributes =
        .ok (some (others ++ [expressionAttribute className template] ++
          [expressionAttribute styleName (.plain .object [.plain .property [key, node]])])) ∧
      AttributeValue ampersandName " a&amp;b".toList " a&b".toList ∧
      (∀ (W : World) s, Evaluates W template s ↔ s = "a&amp;b bold".toList) ∧
      KeyName key "content".toList ∧ ∀ (W : World) s, Evaluates W node s ↔ s = "\\201C".toList := by
  rcases hrun : rewriteMarkers "p".toList referenceAttributes with e | _ | as'
  · cases hrun
  · cases hrun
  obtain ⟨others, classes, styles, rfl, hclass, hstyle, -⟩ := rewriteMarkers_quoted ampersandName hrun
  obtain ⟨segments, rfl, hsegments, hadded⟩ := hclass ⟨_, List.mem_cons_of_mem _ List.mem_cons_self, rfl⟩
  obtain ⟨entries, rfl, hentries⟩ :=
    hstyle ⟨_, List.mem_cons_of_mem _ (List.mem_cons_of_mem _ List.mem_cons_self), rfl⟩
  have hmarks : referenceAttributes.filter marksClass = [.named "$bold".toList .missing] := rfl
  have hmarks' : referenceAttributes.filter marksStyle = [.named "$$content".toList (.quoted "'\\201C'".toList)] := rfl
  rw [hmarks] at hsegments
  rw [hmarks'] at hentries
  obtain ⟨segment, none, hsegment, hnone, rfl⟩ := List.forall₂_cons_left_iff.1 hsegments
  obtain ⟨entry, none', hentry, hnone', rfl⟩ := List.forall₂_cons_left_iff.1 hentries
  cases hnone
  cases hnone'
  obtain ⟨hproperty, hkey, hnode⟩ := hentry
  rename_i property key node
  have hreference : AttributeValue ampersandName " a&amp;b".toList " a&b".toList := by
    have hplain {c : Char} (hc : c ≠ '&') {rest v : Text} (h : AttributeValue ampersandName rest v) :
        AttributeValue ampersandName (c :: rest) (c :: v) :=
      .char (fun ⟨_, _, _, heq, _⟩ => hc (List.cons.inj heq).1) h
    have hamp : References ampersandName "amp".toList '&' := .name (by decide) rfl
    have hbehind : AttributeValue ampersandName ('&' :: ("amp".toList ++ ';' :: ['b'])) ['&', 'b'] :=
      .reference (by decide) hamp (hplain (by decide) .nil)
    exact hplain (by decide) (hplain (by decide) hbehind)
  obtain ⟨hgives, -⟩ := hadded _ _ _ rfl rfl hreference
  refine ⟨others, _, key, node, rfl, hreference, fun W s => (hgives W s).trans ?_, ?_, fun W s => ?_⟩
  · cases hsegment with
    | under _ hnode =>
      cases hnode with
      | expression h => cases h
      | text h => cases h
    | always hname =>
      obtain rfl : "bold".toList = _ := Option.some.inj hname
      simp only [evaluates_classTemplate_text, exists_eq_left]
      rfl
  · obtain rfl : "content".toList = property := Option.some.inj hproperty
    exact hkey
  · exact hnode.evaluates_text rfl

end TerseStyle.Rewrite

/-
The class that is merged. Of several attributes of a name the last one is in effect. Markers merge the last class, and a
chain the first one: the others stay in front of the class that is made, which is in effect then. So the classes in
effect before are lost beside a chain unless there is one class, or the first one was written like the last.

Results:
- `rewriteMarkers_classes`: the classes behind a rewrite of markers.
- `rewriteChain_classes`: the classes behind a rewrite of a chain, and that the class markers are left.
- `rewriteAttributes_classes`: both, and when a chain merges the class in effect.
-/
import TerseStyle.Proofs.Rewrite.Meaning

namespace TerseStyle.Rewrite

open Script

variable {settings : Settings} {language : Language} {tag : TagName} {before after : Trace} {name element : Text}
  {a : Attribute} {as as' result others news : List Attribute}

/-! ## First and last -/

/-- the first attribute of a name -/
def firstNamed (name : Text) (as : List Attribute) : Option Attribute := (as.filter (isNamed name)).head?

/-- the attributes beside a chain -/
def beside (settings : Settings) (as : List Attribute) : List Attribute := as.filter fun a => !isChain settings a

/-- what an attribute was written as, if it is there and has a value -/
def written (a : Option Attribute) : Option Text := a.bind fun a => writtenSource? a.value

theorem firstNamed_eq_lastNamed (h : as.countP (isNamed name) ≤ 1) : firstNamed name as = lastNamed name as := by
  unfold firstNamed lastNamed
  rw [List.countP_eq_length_filter] at h
  rcases hall : as.filter (isNamed name) with _ | ⟨a, rest⟩
  · rfl
  · rw [hall, List.length_cons] at h
    obtain rfl : rest = [] := List.eq_nil_of_length_eq_zero (by omega)
    rfl

/-- one of the attributes with a property is taken out -/
theorem eraseP_of_filter {p : Attribute → Bool} (h : as.filter p = [a]) : as.eraseP p = as.filter fun a => !p a := by
  induction as with
  | nil => cases h
  | cons b rest ih =>
    rw [List.eraseP_cons]
    cases hb : p b with
    | true =>
      rw [List.filter_cons_of_pos hb] at h
      have hnone := (List.cons.inj h).2
      rw [List.filter_eq_nil_iff] at hnone
      have hrest : (rest.filter fun a => !p a) = rest :=
        List.filter_eq_self.2 fun b hb => by simpa using hnone b hb
      rw [List.filter_cons_of_neg (by simp [hb]), hrest]
      rfl
    | false =>
      rw [List.filter_cons_of_neg (by simp [hb])] at h
      rw [List.filter_cons_of_pos (by simp [hb]), ← ih h]
      rfl

/-- what is left of the attributes of a name when the last one is taken out -/
theorem filter_takeLast_self (name : Text) (as : List Attribute) :
    (takeLast name as).2.filter (isNamed name) = (as.filter (isNamed name)).dropLast := by
  induction as with
  | nil => rfl
  | cons a rest ih =>
    have hfst := takeLast_fst name rest
    rw [takeLast]
    rcases htaken : takeLast name rest with ⟨_ | found, others⟩
    · rw [htaken] at ih hfst
      have hnone : rest.filter (isNamed name) = [] := List.getLast?_eq_none_iff.1 hfst.symm
      rw [hnone] at ih
      by_cases hnamed : isNamed name a = true
      · simpa [hnamed, hnone] using ih
      · simpa [hnamed, hnone] using ih
    · rw [htaken] at ih hfst
      have hsome : rest.filter (isNamed name) ≠ [] := by
        intro hnone
        rw [hnone] at hfst
        cases hfst
      by_cases hnamed : isNamed name a = true
      · simp only [List.filter_cons_of_pos hnamed, ih, List.dropLast_cons_of_ne_nil hsome]
      · simp only [List.filter_cons_of_neg hnamed, ih]

/-! ## Markers -/

theorem filter_mergeStyle {entries : List (Text × Node)} (h : mergeStyle element entries as = .ok (others, news)) :
    others.filter (isNamed className) = as.filter (isNamed className) ∧ news.filter (isNamed className) = [] := by
  have hmerges := mergeStyle_mergesLast h
  refine ⟨?_, ?_⟩
  · cases hmerges with
    | left => rfl
    | merged => exact filter_takeLast (fun _ => isNamed_ne className_ne_styleName.symm) as
  · rw [List.filter_eq_nil_iff]
    intro a ha
    rw [isNamed_ne className_ne_styleName.symm (hmerges.news.2.1 a ha)]
    exact Bool.false_ne_true

/-- **The classes behind a rewrite of markers** are all but the last one and the one that it is merged into, or all if
no marker is one of a class. -/
theorem rewriteMarkers_classes {markers : Option (List Attribute)} (h : rewriteMarkers element as = .ok markers) :
    (markers.getD as).filter (isNamed className) =
      if as.any marksClass then (as.filter (isNamed className)).dropLast ++
        [expressionAttribute className (classTemplate (existingSegments (lastNamed className as) ++ classSegments as))]
      else as.filter (isNamed className) := by
  rcases rewriteMarkers_ok h with ⟨rfl, hnone⟩ |
    ⟨_, entries, middle, classes, others, styles, hentries, hclass, hstyle, rfl⟩
  · rw [(any_marks_of_not_isMarker hnone).1]
    rfl
  obtain ⟨hothers, hstyles⟩ := filter_mergeStyle hstyle
  rw [Option.getD_some, List.filter_append, List.filter_append, hothers, hstyles, List.append_nil]
  unfold mergeClass at hclass
  rw [isEmpty_classSegments] at hclass
  cases hmarks : as.any marksClass with
  | false =>
    rw [hmarks] at hclass
    obtain ⟨rfl, rfl⟩ := Prod.mk.inj hclass
    rw [filter_notMarker (Or.inl rfl)]
    exact List.append_nil _
  | true =>
    rw [hmarks] at hclass
    obtain ⟨rfl, rfl⟩ := Prod.mk.inj hclass
    rw [filter_takeLast_self, takeLast_fst, filter_notMarker (Or.inl rfl)]
    rfl

/-! ## Chains -/

/-- attributes that are no class markers have no part in the class segments -/
theorem classSegments_append (as : List Attribute) (h : ∀ a ∈ others, isMarker a = false) :
    classSegments (as ++ others) = classSegments as := by
  have hnone : classSegments others = [] := by
    rw [← List.isEmpty_iff, isEmpty_classSegments, (any_marks_of_not_isMarker h).1]
    rfl
  unfold classSegments at hnone ⊢
  rw [List.filterMap_append, hnone, List.append_nil]

/-- a class has no part in the class segments -/
theorem classSegments_eraseP (as : List Attribute) : classSegments (as.eraseP (isNamed className)) = classSegments as := by
  induction as with
  | nil => rfl
  | cons a rest ih =>
    rw [List.eraseP_cons]
    cases hnamed : isNamed className a with
    | true =>
      have hnone : a.name?.bind markedClass? = none := by
        rw [isNamed_iff.1 hnamed]
        rfl
      unfold classSegments
      rw [List.filterMap_cons, hnone]
      rfl
    | false =>
      unfold classSegments at ih ⊢
      simp only [cond_false, List.filterMap_cons, ih]

theorem any_marksClass_congr (h : classSegments as = classSegments as') : as.any marksClass = as'.any marksClass := by
  rw [← Bool.not_inj_iff, ← isEmpty_classSegments, ← isEmpty_classSegments, h]

/-- the chain among attributes is compiled, and its classes are merged with a class of this source -/
structure MergesSource (settings : Settings) (language : Language) (as : List Attribute) (source : Option Text)
    (compiled : Chain.Compiled) (classes : Node) : Prop where
  chain : ∃ a code, as.filter (isChain settings) = [a] ∧ expressionSource? a.value = some code ∧
    (Chain.compile settings code).result = .ok compiled
  read : readGenerated language (classCode settings.mergeFunction source compiled.classTemplate) = .ok classes

/-- **The classes behind a rewrite of a chain** are all but the first one, and the one that it is merged into. -/
theorem rewriteChain_classes (h : Ends (rewriteChain settings language element as) before (some as') after) :
    ∃ compiled classes,
      MergesSource settings language as (written (firstNamed className (beside settings as))) compiled classes ∧
      as'.filter (isNamed className) =
        ((beside settings as).filter (isNamed className)).tail ++ [expressionAttribute className classes] ∧
      classSegments as' = classSegments (beside settings as) := by
  rcases rewriteChain_ends h with ⟨hnone, _⟩ | ⟨a, code, compiled, merged, hmerged, hone, _, hcode, hcompile, hmerge, _⟩
  · cases hnone
  obtain rfl := Option.some.inj hmerged
  rw [eraseP_of_filter hone] at hmerge
  obtain ⟨classes, styles, rfl, hread, hstyles⟩ := mergeCompiled_ok hmerge
  rw [← List.head?_filter] at hread
  have hstyle : ∀ b ∈ styles, isNamed styleName b = true := by
    rcases hstyles with ⟨-, rfl⟩ | ⟨_, e, -, -, rfl⟩
    · simp
    · exact fun b hb => isNamed_iff.2 (by rw [List.mem_singleton.1 hb]; rfl)
  refine ⟨compiled, classes, ⟨⟨a, code, hone, hcode, hcompile⟩, hread⟩, ?_, ?_⟩
  · have hnone : styles.filter (isNamed className) = [] := by
      rw [List.filter_eq_nil_iff]
      intro b hb
      rw [isNamed_ne className_ne_styleName.symm (hstyle b hb)]
      exact Bool.false_ne_true
    rw [List.filter_append, filter_eraseP, List.filter_cons_of_pos (isNamed_iff.2 rfl), hnone]
    rfl
  · rw [classSegments_append, classSegments_eraseP]
    · rfl
    · intro b hb
      rcases List.mem_cons.1 hb with rfl | hb
      · exact isMarker_of_named (Or.inl rfl) (isNamed_iff.2 rfl)
      · exact isMarker_of_named (Or.inr rfl) (hstyle b hb)

/-- the code of a merged class tells the source of the class -/
theorem classCode_inj {mergeFunction template : Text} {s t : Option Text} :
    classCode mergeFunction s template = classCode mergeFunction t template ↔ s = t := by
  refine ⟨fun h => ?_, fun h => by rw [h]⟩
  unfold classCode at h
  cases s with
  | none =>
    cases t with
    | none => rfl
    | some t =>
      have hlength := congrArg List.length h
      simp at hlength
      omega
  | some s =>
    cases t with
    | none =>
      have hlength := congrArg List.length h
      simp at hlength
      omega
    | some t =>
      simpa using h

/-! ## Chain and markers -/

/-- the class attribute that a chain and class markers make of the class of a chain -/
def madeClass (classes : Node) (markers : List Attribute) : Attribute :=
  expressionAttribute className
    (if markers.any marksClass then classTemplate (.expression classes :: classSegments markers) else classes)

/-- class markers merge the class that a chain made, as it is the last one -/
theorem rewriteMarkers_behind {markers : Option (List Attribute)} {kept : List Attribute} {classes : Node}
    (h : rewriteMarkers element as' = .ok markers)
    (hclasses : as'.filter (isNamed className) = kept ++ [expressionAttribute className classes])
    (hsegments : classSegments as' = classSegments as) :
    (markers.getD as').filter (isNamed className) = kept ++ [madeClass classes as] := by
  have hlast : lastNamed className as' = some (expressionAttribute className classes) := by
    rw [lastNamed, hclasses, List.getLast?_concat]
  rw [rewriteMarkers_classes h, hclasses, List.dropLast_concat, hlast, hsegments, any_marksClass_congr hsegments]
  unfold madeClass
  cases as.any marksClass <;> rfl

/-- **The class that is merged.** Let an element that is no component be rewritten. Without a chain, class markers merge
the last class, which is in effect, and leave the others. A chain merges the first class and leaves the others, in front
of the class that is made; class markers beside it add to that. So a chain merges what it would have merged of the last
class exactly where the first and the last one beside it were written alike, as they are where there is one. -/
theorem rewriteAttributes_classes (hintrinsic : tag.isIntrinsic = true)
    (h : Ends (rewriteAttributes settings language tag as) before result after) :
    (as.any (isChain settings) = false → result.filter (isNamed className) =
      if as.any marksClass then (as.filter (isNamed className)).dropLast ++
        [expressionAttribute className (classTemplate (existingSegments (lastNamed className as) ++ classSegments as))]
      else as.filter (isNamed className)) ∧
    (as.any (isChain settings) = true → ∃ compiled classes,
      MergesSource settings language as (written (firstNamed className (beside settings as))) compiled classes ∧
      result.filter (isNamed className) =
        ((beside settings as).filter (isNamed className)).tail ++ [madeClass classes (beside settings as)] ∧
      (classCode settings.mergeFunction (written (firstNamed className (beside settings as))) compiled.classTemplate =
          classCode settings.mergeFunction (written (lastNamed className (beside settings as))) compiled.classTemplate ↔
        written (firstNamed className (beside settings as)) = written (lastNamed className (beside settings as)))) ∧
    ((beside settings as).countP (isNamed className) ≤ 1 →
      firstNamed className (beside settings as) = lastNamed className (beside settings as)) := by
  rcases rewriteAttributes_ends h with ⟨hcomponent, _⟩ | ⟨_, chain, mid, markers, hchain, hmarkers, rfl, _⟩
  · rw [hintrinsic] at hcomponent
    cases hcomponent
  refine ⟨fun hnone => ?_, fun hsome => ?_, firstNamed_eq_lastNamed⟩
  · rcases rewriteChain_ends hchain with ⟨rfl, _⟩ | ⟨a, _, _, _, _, hone, _⟩
    · exact rewriteMarkers_classes hmarkers
    · have ha : a ∈ as.filter (isChain settings) := by simp [hone]
      rw [List.mem_filter] at ha
      simp [List.any_eq_false.1 hnone a ha.1] at ha
  · cases chain with
    | none =>
      rcases rewriteChain_ends hchain with ⟨_, _, hnone⟩ | ⟨_, _, _, _, ⟨⟩, _⟩
      obtain ⟨a, ha, hchain⟩ := List.any_eq_true.1 hsome
      exact absurd hchain (List.filter_eq_nil_iff.1 hnone a ha)
    | some as' =>
      obtain ⟨compiled, classes, hmerges, hclasses, hsegments⟩ := rewriteChain_classes hchain
      exact ⟨compiled, classes, hmerges, rewriteMarkers_behind hmarkers hclasses hsegments, classCode_inj⟩

/-- two classes and a shorthand -/
def twoClasses (shorthand : Attribute) : List Attribute :=
  [.named className (.quoted "'a'".toList), .named className (.quoted "'b'".toList), shorthand]

/-- beside a chain the first of two classes is merged, and beside a class marker the second one -/
theorem rewriteAttributes_classes_two :
    let language := Language.ofFile "a.tsx".toList
    let chained := twoClasses (.named "ss".toList (.braced (.plain (.word "SS".toList) []) "SS.bold".toList))
    let marked := twoClasses (.named "$on".toList .missing)
    (∃ result after classes,
      Ends (rewriteAttributes smallSettings language (.plain "p".toList) chained) {} result after ∧
      readGenerated language "clsx('a', \x60flex bold\x60)".toList = .ok classes ∧
      result.filter (isNamed className) =
        [.named className (.quoted "'b'".toList), expressionAttribute className classes]) ∧
    ∃ result after,
      Ends (rewriteAttributes smallSettings language (.plain "p".toList) marked) {} result after ∧
      result.filter (isNamed className) = [.named className (.quoted "'a'".toList),
        expressionAttribute className (classTemplate [.text "b".toList, .text "on".toList])] := by
  intro language chained marked
  let rewritten (as : List Attribute) := (rewriteAttributes smallSettings language (.plain "p".toList) as).run.run {}
  have hchained : (rewritten chained).1.isOk = true := by decide +kernel
  have hmarked : (rewritten marked).1.isOk = true := by decide +kernel
  rcases hrun : rewritten chained with ⟨e | result, after⟩
  · rw [hrun] at hchained
    cases hchained
  rcases hrun' : rewritten marked with ⟨e | result', after'⟩
  · rw [hrun'] at hmarked
    cases hmarked
  obtain ⟨-, hchain, -⟩ := rewriteAttributes_classes rfl hrun
  obtain ⟨hnone, -⟩ := rewriteAttributes_classes rfl hrun'
  obtain ⟨compiled, classes, ⟨⟨a, code, hone, hcode, hcompile⟩, hread⟩, hclasses, -⟩ := hchain rfl
  have hcompiled : compiled = ⟨"\x60flex bold\x60".toList, none, []⟩ := by
    obtain rfl : _ = a := (List.cons.inj hone).1
    obtain rfl : "SS.bold".toList = code := Option.some.inj hcode
    have hresult : (Chain.compile smallSettings "SS.bold".toList).result =
        .ok ⟨"\x60flex bold\x60".toList, none, []⟩ := by decide +kernel
    exact Except.ok.inj (hcompile.symm.trans hresult)
  rw [hcompiled] at hread
  exact ⟨⟨result, after, classes, hrun, hread, hclasses⟩, result', after', hrun', hnone rfl⟩

end TerseStyle.Rewrite

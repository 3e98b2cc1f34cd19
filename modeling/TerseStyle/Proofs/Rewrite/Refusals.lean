/-
Elements that are refused. The chain of an element is replaced before its markers are looked at, and each of the two
checks its own attributes; the markers see what the chain was replaced by. Here every complaint is judged on the
attributes as they were written, so that the first one in a fixed order tells the outcome.

Results:
- `refusalOf_rewriteChain`, `errorOf_rewriteMarkers`: what the chain, and what the markers, are refused for.
- `markerComplaints_rewriteChain`: a replaced chain neither causes nor hides a complaint about markers.
- `rewriteAttributes_refuses`: an element fails with the first complaint about it, and is rewritten if there is none.
-/
import TerseStyle.Proofs.Rewrite.Conservation

namespace TerseStyle.Rewrite

open Script

/-! ## Complaints -/

/-- why the text of a chain does not compile -/
def compileError? (settings : Settings) (source : Text) : Option RewriteError :=
  match (Chain.compile settings source).result with
  | .error e => some (.chain e)
  | .ok _ => none

/-- whether an attribute is a style marker without a value -/
def lacksValue (a : Attribute) : Bool := marksStyle a && (markerExpression? a.value).isNone

/-- whether an attribute has a string as its value -/
def holdsText (a : Attribute) : Bool :=
  match given a.value with
  | .text _ => true
  | _ => false

section Complaints

variable (settings : Settings) (language : Language) (element : Text) (as : List Attribute)

/-- a second attribute that holds a chain -/
def repeatedChain? : Option RewriteError :=
  (as.filter (isChain settings))[1]?.map fun a => .invalidChainAttribute (nameOf a)

/-- a chain beside a style of any value -/
def chainBesideStyle? : Option RewriteError :=
  if as.any (isChain settings) && as.any (isNamed styleName) then some (.mixedStyle element) else none

/-- an attribute for a chain with no value, an empty one or a string -/
def chainWithoutExpression? : Option RewriteError :=
  (as.find? fun a => isChain settings a && (expressionSource? a.value).isNone).map fun a =>
    .invalidChainAttribute (nameOf a)

/-- a chain that does not compile -/
def failingChain? : Option RewriteError :=
  ((as.find? (isChain settings)).bind fun a => expressionSource? a.value).bind (compileError? settings)

/-- code made of the chain that is not one whole expression; the classes come before the styles -/
def brokenCode? : Option RewriteError :=
  (generatedCode settings as).findSome? fun code => errorOf (readGenerated language code)

/-- the first style marker without a value -/
def styleWithoutValue? : Option RewriteError := (as.find? lacksValue).map fun a => .missingStyleValue (nameOf a)

/-- a style marker where the last style is a string -/
def markerBesideText? : Option RewriteError :=
  if as.any marksStyle && (as.filter (isNamed styleName)).getLast?.any holdsText then some (.mixedStyle element)
  else none

/-- the complaints about a chain, in the order in which they are made -/
def chainComplaints : List (Option RewriteError) :=
  [repeatedChain? settings as, chainBesideStyle? settings element as, chainWithoutExpression? settings as,
    failingChain? settings as, brokenCode? settings language as]

/-- the complaints about markers, in the order in which they are made -/
def markerComplaints : List (Option RewriteError) := [styleWithoutValue? as, markerBesideText? element as]

/-- the complaints about the attributes of an element -/
def complaints : List (Option RewriteError) :=
  chainComplaints settings language element as ++ markerComplaints element as

end Complaints

/-- the first complaint that applies -/
def firstOf (cs : List (Option RewriteError)) : Option RewriteError := cs.findSome? id

theorem firstOf_append (cs ds : List (Option RewriteError)) : firstOf (cs ++ ds) = (firstOf cs).or (firstOf ds) :=
  List.findSome?_append

theorem firstOf_pair (c d : Option RewriteError) : firstOf [c, d] = c.or d := by
  cases c <;> cases d <;> rfl

theorem firstOf_eq_none_iff {cs : List (Option RewriteError)} : firstOf cs = none ↔ ∀ c ∈ cs, c = none :=
  List.findSome?_eq_none_iff

/-! ## Chains -/

variable {settings : Settings} {language : Language} {element : Text} {as : List Attribute} {before : Trace}

theorem errorOf_mergeCompiled (settings : Settings) (language : Language) (compiled : Chain.Compiled)
    (others : List Attribute) :
    errorOf (mergeCompiled settings language compiled others) =
      (classCode settings.mergeFunction ((others.find? (isNamed className)).bind fun a => writtenSource? a.value)
        compiled.classTemplate :: compiled.styleObject.toList).findSome? fun code =>
          errorOf (readGenerated language code) := by
  unfold mergeCompiled
  rw [takeFirst_eq, List.findSome?_cons]
  simp only
  generalize classCode settings.mergeFunction
    ((others.find? (isNamed className)).bind fun a => writtenSource? a.value) compiled.classTemplate = code
  rcases readGenerated language code with e | classes
  · rfl
  · cases compiled.styleObject with
    | none => rfl
    | some styleCode =>
      rw [Option.toList_some, List.findSome?_cons]
      simp only
      rcases readGenerated language styleCode with e | style <;> rfl

/-- an attribute with a chain is refused for its value, or for the chain that this is -/
theorem refusalOf_compileAttribute (settings : Settings) (a : Attribute) (before : Trace) :
    refusalOf (compileAttribute settings a) before =
      match expressionSource? a.value with
      | none => some (.invalidChainAttribute (nameOf a))
      | some source => compileError? settings source := by
  unfold compileAttribute compileError?
  cases expressionSource? a.value with
  | none => rfl
  | some source =>
    dsimp only
    generalize Chain.compile settings source = compilation
    obtain ⟨notices, _ | _⟩ := compilation <;> rfl

theorem find?_and (p q : Attribute → Bool) (as : List Attribute) :
    (as.find? fun a => p a && q a) = (as.filter p).find? q := by
  simp only [List.find?_filter, Bool.decide_and, Bool.decide_eq_true]

theorem firstOf_chainComplaints_of_none (h : as.filter (isChain settings) = []) :
    firstOf (chainComplaints settings language element as) = none := by
  have hchain : ∀ a ∈ as, isChain settings a = false := by simpa [List.filter_eq_nil_iff] using h
  have hfind : as.find? (isChain settings) = none := List.find?_eq_none.2 fun a ha => by simp [hchain a ha]
  have hany : as.any (isChain settings) = false := List.any_eq_false.2 fun a ha => by simp [hchain a ha]
  have hvalue : chainWithoutExpression? settings as = none := by
    rw [chainWithoutExpression?, find?_and, h]
    rfl
  have hcode : brokenCode? settings language as = none := by
    rw [brokenCode?, generatedCode, hfind]
    rfl
  rw [firstOf_eq_none_iff, chainComplaints, repeatedChain?, chainBesideStyle?, failingChain?, hvalue, hcode, h, hfind,
    hany]
  simp

/-- the complaints about a chain when there is one -/
theorem firstOf_chainComplaints_of_one {a : Attribute} (h : as.filter (isChain settings) = [a]) :
    firstOf (chainComplaints settings language element as) =
      if as.any (isNamed styleName) then some (.mixedStyle element)
      else match expressionSource? a.value with
        | none => some (.invalidChainAttribute (nameOf a))
        | some source => (compileError? settings source).or (brokenCode? settings language as) := by
  have hfind := find?_of_filter h
  have hany : as.any (isChain settings) = true := by
    rw [List.any_eq_true]
    exact ⟨a, List.mem_of_find?_eq_some hfind, List.find?_some hfind⟩
  have hrepeated : repeatedChain? settings as = none := by
    rw [repeatedChain?, h]
    rfl
  have hvalue : chainWithoutExpression? settings as =
      ([a].find? fun a => (expressionSource? a.value).isNone).map fun a => .invalidChainAttribute (nameOf a) := by
    rw [chainWithoutExpression?, find?_and, h]
  have hchain : failingChain? settings as = (expressionSource? a.value).bind (compileError? settings) := by
    rw [failingChain?, hfind]
    rfl
  rw [chainComplaints, firstOf, hrepeated, chainBesideStyle?, hany, Bool.true_and, hvalue, hchain]
  cases as.any (isNamed styleName) with
  | true => rfl
  | false =>
    cases hsource : expressionSource? a.value with
    | none => simp [hsource]
    | some source =>
      have hnone : ([a].find? fun a => (expressionSource? a.value).isNone) = none := by simp [hsource]
      rw [hnone]
      simp only [List.findSome?_cons, List.findSome?_nil, Option.map_none, id_eq, Option.bind_some]
      cases compileError? settings source <;> cases brokenCode? settings language as <;> rfl

/-- what an element is refused for before its markers are looked at -/
theorem refusalOf_rewriteChain :
    refusalOf (rewriteChain settings language element as) before =
      firstOf (chainComplaints settings language element as) := by
  unfold rewriteChain
  split
  · rename_i hnone
    rw [firstOf_chainComplaints_of_none hnone]
    rfl
  · rename_i a hone
    rw [firstOf_chainComplaints_of_one hone]
    split
    · rfl
    · have hmerge (compiled : Chain.Compiled) (mid : Trace)
          (hcompiled : Ends (compileAttribute settings a) before compiled mid) :
          refusalOf (do
            let merged ← (liftM (mergeCompiled settings language compiled (takeChain settings as)) : Rewriting _)
            return some merged) mid = brokenCode? settings language as := by
        obtain ⟨source, hsource, hresult, _⟩ := compileAttribute_ends hcompiled
        have hcode := errorOf_mergeCompiled settings language compiled (takeChain settings as)
        rw [refusalOf_bind fun merged mid' _ => refusalOf_pure (some merged) mid', refusalOf_lift, Option.or_none]
        rw [brokenCode?, generatedCode, find?_of_filter hone, Option.bind_some, hsource, ← takeChain_eq]
        simp only [hresult]
        exact hcode
      rw [refusalOf_bind hmerge, refusalOf_compileAttribute]
      cases expressionSource? a.value <;> rfl
  · rename_i a b more hmore
    have hrepeated : repeatedChain? settings as = some (.invalidChainAttribute (nameOf b)) := by
      rw [repeatedChain?, hmore]
      rfl
    rw [chainComplaints, firstOf, List.findSome?_cons, hrepeated]
    rfl

/-! ## Markers -/

theorem errorOf_entry (a : Attribute) :
    errorOf ( styleEntry? a) = if lacksValue a then some (.missingStyleValue (nameOf a)) else none := by
  unfold styleEntry? lacksValue marksStyle attributeProperty? nameOf
  cases a.name? with
  | none => rfl
  | some name =>
    simp only [Option.bind_some, Option.getD_some]
    cases styleProperty? name with
    | none => rfl
    | some property => cases markerExpression? a.value <;> rfl

theorem styleWithoutValue?_cons (a : Attribute) (rest : List Attribute) :
    styleWithoutValue? (a :: rest) =
      (if lacksValue a then some (.missingStyleValue (nameOf a)) else none).or (styleWithoutValue? rest) := by
  unfold styleWithoutValue?
  rw [List.find?_cons]
  cases lacksValue a <;> rfl

/-- the entries fail at the first style marker without a value -/
theorem errorOf_styleEntries (as : List Attribute) : errorOf (styleEntries as) = styleWithoutValue? as := by
  induction as with
  | nil => rfl
  | cons a rest ih =>
    rw [styleWithoutValue?_cons, ← errorOf_entry, ← ih, styleEntries]
    rcases styleEntry? a with e | entry
    · rfl
    · rcases styleEntries rest with e | entries <;> rfl

theorem errorOf_existingStyle (a : Option Attribute) :
    errorOf (existingStyle element a) = if a.any holdsText then some (.mixedStyle element) else none := by
  cases a with
  | none => rfl
  | some a =>
    unfold existingStyle
    rw [Option.map_some, Option.any_some, holdsText]
    cases given a.value <;> rfl

theorem errorOf_mergeStyle (entries : List (Text × Node)) (as : List Attribute) :
    errorOf (mergeStyle element entries as) =
      if !entries.isEmpty && (as.filter (isNamed styleName)).getLast?.any holdsText then some (.mixedStyle element)
      else none := by
  unfold mergeStyle
  cases entries.isEmpty with
  | true => rfl
  | false =>
    rw [Bool.not_false, Bool.true_and, ← takeLast_fst, ← errorOf_existingStyle]
    change errorOf (existingStyle element (takeLast styleName as).1 >>= fun base => pure _) = _
    rcases existingStyle element (takeLast styleName as).1 with e | base <;> rfl

/-- what markers are refused for -/
theorem errorOf_rewriteMarkers (element : Text) (as : List Attribute) :
    errorOf (rewriteMarkers element as) = firstOf (markerComplaints element as) := by
  rw [markerComplaints, firstOf_pair, markerBesideText?, ← errorOf_styleEntries]
  unfold rewriteMarkers
  cases hmarkers : hasMarkers as with
  | false =>
    have hnone : ∀ a ∈ as, isMarker a = false := by simpa [hasMarkers] using hmarkers
    have hmarks := (any_marks_of_not_isMarker hnone).2
    have hvalued : styleWithoutValue? as = none := by
      rw [styleWithoutValue?, Option.map_eq_none_iff, List.find?_eq_none]
      intro a ha
      simp [lacksValue, List.any_eq_false.1 hmarks a ha]
    rw [errorOf_styleEntries, hvalued, hmarks]
    rfl
  | true =>
    rcases hentries : styleEntries as with e | entries
    · rfl
    · rw [← Bool.not_not (as.any marksStyle), ← isEmpty_styleEntries hentries, errorOf, Option.none_or,
        ← filter_notMarker (Or.inr rfl) as, ← filter_mergeClass (classSegments as) (as.filter fun a => !isMarker a),
        ← errorOf_mergeStyle]
      change errorOf (mergeStyle element entries (mergeClass (classSegments as) (as.filter fun a => !isMarker a)).1 >>=
        fun r => pure _) = _
      rcases mergeStyle element entries (mergeClass (classSegments as) (as.filter fun a => !isMarker a)).1 with e | r <;>
        rfl

/-! ## Markers behind a chain -/

theorem markerBesideText?_eq_none (h : ∀ a ∈ as, isNamed styleName a = true → holdsText a = false) :
    markerBesideText? element as = none := by
  have hlast : (as.filter (isNamed styleName)).getLast?.any holdsText = false := by
    rcases hlast : (as.filter (isNamed styleName)).getLast? with _ | a
    · rfl
    · obtain ⟨ha, hnamed⟩ := List.mem_filter.1 (List.mem_of_getLast? hlast)
      exact h a ha hnamed
  rw [markerBesideText?, hlast, Bool.and_false]
  rfl

theorem holdsText_of_isMade {a : Attribute} (h : IsMade a) : holdsText a = false := by
  obtain ⟨e, rfl | rfl⟩ := h <;> rfl

/-- attributes without the class that is merged, and made ones behind them -/
theorem mergeCompiled_made {compiled : Chain.Compiled} {others result : List Attribute}
    (h : mergeCompiled settings language compiled others = .ok result) :
    ∃ made, result = others.eraseP (isNamed className) ++ made ∧ ∀ a ∈ made, IsMade a := by
  obtain ⟨classes, styles, rfl, _, hstyles⟩ := mergeCompiled_ok h
  refine ⟨_, rfl, ?_⟩
  intro a ha
  rcases List.mem_cons.1 ha with rfl | ha
  · exact ⟨classes, Or.inl rfl⟩
  · rcases hstyles with ⟨_, rfl⟩ | ⟨_, e, _, _, rfl⟩
    · cases ha
    · exact ⟨e, Or.inr (List.mem_singleton.1 ha)⟩

theorem not_lacksValue_of_not_isMarker {a : Attribute} (h : isMarker a = false) : lacksValue a = false := by
  have hmarks : marksStyle a = false := by
    rw [← Bool.not_eq_true]
    intro hmarks
    have := (isMarker_iff a).2 (Or.inr hmarks)
    rw [h] at this
    cases this
  rw [lacksValue, hmarks, Bool.false_and]

theorem not_lacksValue_of_expression {a : Attribute} {source : Text} (h : expressionSource? a.value = some source) :
    lacksValue a = false := by
  have hvalue : (markerExpression? a.value).isNone = false := by
    cases hcase : a.value with
    | missing => rw [hcase] at h; cases h
    | quoted => rfl
    | braced => rfl
    | markup => rfl
  rw [lacksValue, hvalue, Bool.and_false]

/-- when a chain was replaced, there is no style that was written, and the style markers lack values as before -/
theorem rewriteChain_markers {before mid : Trace} {merged : List Attribute}
    (h : Ends (rewriteChain settings language element as) before (some merged) mid) :
    (∀ element', markerBesideText? element' as = none ∧ markerBesideText? element' merged = none) ∧
      styleWithoutValue? merged = styleWithoutValue? as := by
  rcases rewriteChain_ends h with ⟨hnone, _⟩ | ⟨a, source, compiled, _, ⟨⟩, hone, hstyle, hsource, _, hmerge, _⟩
  · cases hnone
  have hnoStyle : ∀ b ∈ as, isNamed styleName b = false := fun b hb => by simpa using List.any_eq_false.1 hstyle b hb
  obtain ⟨made, rfl, hmade⟩ := mergeCompiled_made hmerge
  constructor
  · intro element'
    constructor
    · refine markerBesideText?_eq_none fun b hb hnamed => ?_
      rw [hnoStyle b hb] at hnamed
      cases hnamed
    · refine markerBesideText?_eq_none fun b hb hnamed => ?_
      rcases List.mem_append.1 hb with hb | hb
      · rw [hnoStyle b (List.mem_of_mem_eraseP (List.mem_of_mem_eraseP hb))] at hnamed
        cases hnamed
      · exact holdsText_of_isMade (hmade b hb)
  · -- neither the chain nor the merged class nor what was made lacks a value
    have hchain : ∀ b ∈ as, isChain settings b = true → lacksValue b = false := by
      intro b hb hischain
      have hmem : b ∈ as.filter (isChain settings) := List.mem_filter.2 ⟨hb, hischain⟩
      rw [hone, List.mem_singleton] at hmem
      rw [hmem]
      exact not_lacksValue_of_expression hsource
    have hclass : ∀ b ∈ as.eraseP (isChain settings), isNamed className b = true → lacksValue b = false :=
      fun b _ hnamed => not_lacksValue_of_not_isMarker (isMarker_of_named (Or.inl rfl) hnamed)
    have hnone : made.find? lacksValue = none :=
      List.find?_eq_none.2 fun b hb => by simp [not_lacksValue_of_not_isMarker (hmade b hb).not_isMarker]
    have hfind : ((as.eraseP (isChain settings)).eraseP (isNamed className) ++ made).find? lacksValue =
        as.find? lacksValue := by
      rw [List.find?_append, hnone, Option.or_none, find?_eraseP_of_disjoint hclass, find?_eraseP_of_disjoint hchain]
    rw [styleWithoutValue?, hfind]
    rfl

/-- a replaced chain neither causes nor hides a complaint about markers -/
theorem markerComplaints_rewriteChain {before mid : Trace} {chain : Option (List Attribute)}
    (h : Ends (rewriteChain settings language element as) before chain mid) :
    markerComplaints element (chain.getD as) = markerComplaints element as := by
  cases chain with
  | none => rfl
  | some merged =>
    obtain ⟨hbeside, hvalue⟩ := rewriteChain_markers h
    rw [Option.getD_some, markerComplaints, markerComplaints, hvalue, (hbeside element).1, (hbeside element).2]

/-! ## An element -/

variable {tag : TagName}

/-- an element is refused for what is said first about the attributes as they were written -/
theorem refusalOf_rewriteAttributes (hintrinsic : tag.isIntrinsic = true) :
    refusalOf (rewriteAttributes settings language tag as) before =
      firstOf (complaints settings language tag.text as) := by
  unfold rewriteAttributes
  rw [hintrinsic, complaints, firstOf_append]
  have hcount (chain markers : Option (List Attribute)) (mid : Trace) :
      refusalOf (if chain.isSome || markers.isSome then count >>= fun _ => pure (markers.getD (chain.getD as))
        else pure (markers.getD (chain.getD as)) : Rewriting (List Attribute)) mid = none := by
    split <;> rfl
  have hmarkers (chain : Option (List Attribute)) (mid : Trace)
      (hchain : Ends (rewriteChain settings language tag.text as) before chain mid) :
      refusalOf (do
        let markers ← (liftM (rewriteMarkers tag.text (chain.getD as)) : Rewriting _)
        if chain.isSome || markers.isSome then count
        return markers.getD (chain.getD as)) mid = firstOf (markerComplaints tag.text as) := by
    rw [refusalOf_bind fun markers mid' _ => hcount chain markers mid', refusalOf_lift, Option.or_none,
      errorOf_rewriteMarkers, markerComplaints_rewriteChain hchain]
  rw [← refusalOf_rewriteChain, ← refusalOf_bind hmarkers]
  rfl

/-- **Refusals of an element, exactly.** An element that is no component fails with the first complaint about its
attributes as they were written, and is rewritten when there is none. The order is: a second chain; a chain beside a
style; a chain without an expression; a chain that does not compile; code made of it that is not one whole expression; the
first style marker without a value; style markers where the last style is a string. Once its chain was replaced, an
element is never refused for mixed styles. -/
theorem rewriteAttributes_refuses (settings : Settings) (language : Language) (hintrinsic : tag.isIntrinsic = true)
    (as : List Attribute) (before : Trace) :
    (∀ e, (∃ after, (rewriteAttributes settings language tag as).run.run before = (.error e, after)) ↔
        firstOf (complaints settings language tag.text as) = some e) ∧
      ((∃ result after, Ends (rewriteAttributes settings language tag as) before result after) ↔
        ∀ complaint ∈ complaints settings language tag.text as, complaint = none) ∧
      ∀ merged mid, Ends (rewriteChain settings language tag.text as) before (some merged) mid →
        ∀ element, rewriteMarkers tag.text merged ≠ .error (.mixedStyle element) := by
  have hrefusal : refusalOf (rewriteAttributes settings language tag as) before =
      firstOf (complaints settings language tag.text as) := refusalOf_rewriteAttributes hintrinsic
  refine ⟨?_, ?_, ?_⟩
  · intro e
    rw [← hrefusal, refusalOf_eq_some_iff]
  · rw [← firstOf_eq_none_iff, ← hrefusal, refusalOf_eq_none_iff]
  · intro merged mid h element herror
    have hfirst := errorOf_rewriteMarkers tag.text merged
    rw [herror, markerComplaints, firstOf_pair, ((rewriteChain_markers h).1 tag.text).2, Option.or_none,
      styleWithoutValue?] at hfirst
    obtain ⟨_, _, hkind⟩ := Option.map_eq_some_iff.1 hfirst.symm
    cases hkind

/-- a chain that is a string is refused before a style marker in front of it that has no value; a style marker is
refused beside a style that is a string, and not beside one that is an expression -/
theorem rewriteAttributes_refuses_first :
    let div : TagName := .plain "div".toList
    let x : Value := .braced (.plain (.word "x".toList) []) "x".toList
    let run := fun as => (rewriteAttributes .standard (.ofFile "a.tsx".toList) div as).run.run {}
    (∃ after, run [.named "$$top".toList .missing, .named "ss".toList (.quoted "'SS.a'".toList)] =
        (.error (.invalidChainAttribute "ss".toList), after)) ∧
      (∃ after, run [.named "style".toList (.quoted "'a'".toList), .named "$$top".toList x] =
        (.error (.mixedStyle "div".toList), after)) ∧
      ∃ result after, run [.named "style".toList x, .named "$$top".toList x] = (.ok result, after) := by
  intro div x run
  have hrefuses (as : List Attribute) :=
    rewriteAttributes_refuses .standard (.ofFile "a.tsx".toList) (by decide : div.isIntrinsic = true) as {}
  refine ⟨((hrefuses _).1 _).2 rfl, ((hrefuses _).1 _).2 rfl, (hrefuses _).2.1.2 ?_⟩
  rw [← firstOf_eq_none_iff]
  rfl

end TerseStyle.Rewrite

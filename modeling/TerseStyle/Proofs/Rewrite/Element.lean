/-
One element. A settled element is left alone, one that is not becomes settled and is counted. The elements inside its
attributes afterwards are those inside the ones that its chain keeps and those in the expressions read for the chain.

Results:
- `rewriteAttributes_settled`, `rewriteAttributes_cases`: whether an element is settled decides what happens to it.
- `rewriteAttributes_openings`: where the elements inside its attributes come from.
-/
import TerseStyle.Proofs.Rewrite.Replacing

namespace TerseStyle.Rewrite

open Script

variable {settings : Settings} {language : Language} {tag : TagName} {before after : Trace}

/-- the attributes that a rewrite makes do not hold chains -/
def ChainsApart (settings : Settings) : Prop :=
  settings.isChainAttribute className = false ∧ settings.isChainAttribute styleName = false

theorem isShorthand_of_made (hapart : ChainsApart settings) {a : Attribute}
    (h : isNamed className a = true ∨ isNamed styleName a = true) : isShorthand settings a = false := by
  have hclass : classMarker.isPrefixOf className = false := by decide
  have hstyle : classMarker.isPrefixOf styleName = false := by decide
  rw [isNamed_iff, isNamed_iff] at h
  rcases h with h | h
  · simp [isShorthand, isMarker, isChain, h, hclass, hapart.1]
  · simp [isShorthand, isMarker, isChain, h, hstyle, hapart.2]

/-- an element that is no component is settled when none of its attributes is a marker or holds a chain -/
theorem isSettled_iff {as : List Attribute} (hintrinsic : tag.isIntrinsic = true) :
    IsSettled settings ⟨tag, as⟩ ↔ (∀ a ∈ as, isChain settings a = false) ∧ ∀ a ∈ as, isMarker a = false := by
  simp only [IsSettled, hintrinsic, true_imp_iff, isShorthand, Bool.or_eq_false_iff]
  rw [← forall₂_and]
  exact forall₂_congr fun _ _ => and_comm

/-! ## The steps of an element -/

theorem rewriteAttributes_ends {as result : List Attribute}
    (h : Ends (rewriteAttributes settings language tag as) before result after) :
    (tag.isIntrinsic = false ∧ result = as ∧ after = before) ∨
      tag.isIntrinsic = true ∧ ∃ chain mid markers, Ends (rewriteChain settings language tag.text as) before chain mid ∧
        rewriteMarkers tag.text (chain.getD as) = .ok markers ∧ result = markers.getD (chain.getD as) ∧
        after.rewritten = mid.rewritten + if chain.isSome || markers.isSome then 1 else 0 := by
  unfold rewriteAttributes at h
  cases hintrinsic : tag.isIntrinsic with
  | false =>
    rw [hintrinsic] at h
    obtain ⟨rfl, rfl⟩ := ends_pure.1 h
    exact Or.inl ⟨rfl, rfl, rfl⟩
  | true =>
    rw [hintrinsic] at h
    obtain ⟨chain, mid, hchain, hrest⟩ := ends_bind.1 h
    obtain ⟨markers, _, hlift, hlast⟩ := ends_bind.1 hrest
    obtain ⟨hmarkers, rfl⟩ := ends_lift.1 hlift
    refine Or.inr ⟨rfl, chain, _, markers, hchain, hmarkers, ?_⟩
    simp only at hlast
    split at hlast
    · rename_i hsome
      obtain ⟨_, _, hcount, hend⟩ := ends_bind.1 hlast
      obtain rfl := ends_modify.1 hcount
      obtain ⟨rfl, rfl⟩ := ends_pure.1 hend
      exact ⟨rfl, by rw [if_pos hsome]⟩
    · rename_i hnone
      obtain ⟨rfl, rfl⟩ := ends_pure.1 hlast
      exact ⟨rfl, by rw [if_neg hnone]; rfl⟩

/-- a settled element is left alone -/
theorem rewriteAttributes_settled {as : List Attribute} (h : IsSettled settings ⟨tag, as⟩) (before : Trace) :
    Ends (rewriteAttributes settings language tag as) before as before := by
  unfold rewriteAttributes
  cases hintrinsic : tag.isIntrinsic with
  | false => exact ends_pure.2 ⟨rfl, rfl⟩
  | true =>
    obtain ⟨hchain, hmarker⟩ := (isSettled_iff hintrinsic).1 h
    have hnone : as.filter (isChain settings) = [] := List.filter_eq_nil_iff.2 fun a ha => by simp [hchain a ha]
    have hchain : Ends (rewriteChain settings language tag.text as) before none before := by
      rw [rewriteChain, hnone]
      exact ends_pure.2 ⟨rfl, rfl⟩
    have hmarkers : rewriteMarkers tag.text as = .ok none := by
      have : hasMarkers as = false := by
        rw [hasMarkers, List.any_eq_false]
        exact fun a ha => by simp [hmarker a ha]
      rw [rewriteMarkers, this]
      rfl
    exact ends_bind.2 ⟨none, before, hchain, ends_bind.2 ⟨none, before, ends_lift.2 ⟨hmarkers, rfl⟩,
      ends_pure.2 ⟨rfl, rfl⟩⟩⟩

theorem isChain_rewriteChain (hapart : ChainsApart settings) {element : Text} {as : List Attribute}
    {chain : Option (List Attribute)} (h : Ends (rewriteChain settings language element as) before chain after) :
    ∀ a ∈ chain.getD as, isChain settings a = false := by
  rcases rewriteChain_cases h with ⟨rfl, _, hnone⟩ | ⟨news, rfl, _, _, hkept, hnews, _⟩
  · exact hnone
  · intro a ha
    rcases List.mem_append.1 ha with ha | ha
    · exact hkept a ha
    · have := isShorthand_of_made hapart (hnews a ha)
      rw [isShorthand, Bool.or_eq_false_iff] at this
      exact this.2

theorem mem_rewriteMarkers {element : Text} {as : List Attribute} {markers : Option (List Attribute)}
    (h : rewriteMarkers element as = .ok markers) {a : Attribute} (ha : a ∈ markers.getD as) :
    (a ∈ as ∧ isMarker a = false) ∨ isNamed className a = true ∨ isNamed styleName a = true := by
  rcases rewriteMarkers_cases h with ⟨rfl, hnone⟩ | ⟨as', rfl, _, hnames, _⟩
  · exact Or.inl ⟨ha, hnone a ha⟩
  · exact hnames a ha

/-- an element that is not settled is counted: a rewrite that leaves both chain and markers alone had neither -/
theorem rewriteAttributes_count {as result : List Attribute}
    (h : Ends (rewriteAttributes settings language tag as) before result after)
    (hnot : ¬ IsSettled settings ⟨tag, as⟩) : tag.isIntrinsic = true ∧ after.rewritten = before.rewritten + 1 := by
  rcases rewriteAttributes_ends h with ⟨hcomponent, _, _⟩ |
    ⟨hintrinsic, chain, mid, markers, hchain, hmarkers, rfl, hcount⟩
  · refine absurd (fun hintrinsic => ?_) hnot
    rw [hcomponent] at hintrinsic
    cases hintrinsic
  have hsome : (chain.isSome || markers.isSome) = true := by
    by_contra hnone
    rw [Bool.not_eq_true, Bool.or_eq_false_iff, Option.isSome_eq_false_iff, Option.isSome_eq_false_iff,
      Option.isNone_iff_eq_none, Option.isNone_iff_eq_none] at hnone
    obtain ⟨rfl, rfl⟩ := hnone
    rcases rewriteChain_cases hchain with ⟨_, _, hnochain⟩ | ⟨_, hsome, _⟩
    · rcases rewriteMarkers_cases hmarkers with ⟨_, hnomarker⟩ | ⟨_, hsome, _⟩
      · exact hnot ((isSettled_iff hintrinsic).2 ⟨hnochain, hnomarker⟩)
      · cases hsome
    · cases hsome
  have hmid : mid.rewritten = before.rewritten := by
    rcases rewriteChain_cases hchain with ⟨_, rfl, _⟩ | ⟨_, _, hmid, _⟩
    · rfl
    · exact hmid
  rw [if_pos hsome, hmid] at hcount
  exact ⟨hintrinsic, hcount⟩

/-- an element is left alone when it is settled, else it becomes settled and is counted -/
theorem rewriteAttributes_cases (hapart : ChainsApart settings) {as result : List Attribute}
    (h : Ends (rewriteAttributes settings language tag as) before result after) :
    (IsSettled settings ⟨tag, as⟩ ∧ result = as ∧ after = before) ∨
      (¬ IsSettled settings ⟨tag, as⟩ ∧ IsSettled settings ⟨tag, result⟩ ∧ before.rewritten < after.rewritten) := by
  by_cases hsettled : IsSettled settings ⟨tag, as⟩
  · exact Or.inl ⟨hsettled, h.unique (rewriteAttributes_settled hsettled before)⟩
  obtain ⟨hintrinsic, hcount⟩ := rewriteAttributes_count h hsettled
  refine Or.inr ⟨hsettled, ?_, by omega⟩
  rcases rewriteAttributes_ends h with ⟨hcomponent, _, _⟩ | ⟨_, chain, mid, markers, hchain, hmarkers, rfl, _⟩
  · rw [hcomponent] at hintrinsic
    cases hintrinsic
  · intro _ a ha
    rcases mem_rewriteMarkers hmarkers ha with ⟨ha, hmarker⟩ | hmade
    · rw [isShorthand, hmarker, isChain_rewriteChain hapart hchain a ha]; rfl
    · exact isShorthand_of_made hapart hmade

/-- the elements inside the attributes afterwards are those inside the attributes kept, and those in what was read for a
chain; all of this is of an element that is no component, the attributes of which stay -/
theorem rewriteAttributes_openings {as result : List Attribute} (hintrinsic : tag.isIntrinsic = true)
    (h : Ends (rewriteAttributes settings language tag as) before result after) (o : Opening) :
    o ∈ Attribute.openingsAll result ↔ o ∈ Attribute.openingsAll (keptBy settings id as) ∨
      o ∈ Node.openingsAll (generated settings language as) := by
  rcases rewriteAttributes_ends h with ⟨hcomponent, _, _⟩ | ⟨_, chain, mid, markers, hchain, hmarkers, rfl, _⟩
  · rw [hcomponent] at hintrinsic
    cases hintrinsic
  have hmoved : o ∈ Attribute.openingsAll (markers.getD (chain.getD as)) ↔
      o ∈ Attribute.openingsAll (chain.getD as) := by
    rcases rewriteMarkers_cases hmarkers with ⟨rfl, _⟩ | ⟨as', rfl, _, _, hmoved⟩
    · rfl
    · exact hmoved o
  rw [hmoved]
  rcases rewriteChain_cases hchain with ⟨rfl, _, hnone⟩ | ⟨news, rfl, _, _, _, _, hnews⟩
  · have hkept : keptBy settings id as = as := if_neg (by simpa using hnone)
    have hfind : as.find? (isChain settings) = none := List.find?_eq_none.2 fun a ha => by simp [hnone a ha]
    have hgenerated : generated settings language as = [] := by rw [generated, generatedCode, hfind]; rfl
    rw [hkept, hgenerated]
    simp [Node.openingsAll]
  · rw [Option.getD_some, openingsInside_append, List.mem_append, hnews]

end TerseStyle.Rewrite

/-
Class templates in a world. A template of segments is evaluated, and what it gives taken apart at blanks. Texts are
compared by their words only, since line ends are read as line feeds wherever a segment has other ones.

Results:
- `evaluates_stringLiteral`, `evaluates_conditionalClass`: what the literals that a rewrite makes give.
- `classTemplate_names`: the class names that a template of segments gives are those of its segments, in order.
-/
import Mathlib.Data.List.Forall2
import TerseStyle.Proofs.Script.Evaluation
import TerseStyle.Rewrite.Synthesis

namespace TerseStyle.Rewrite

open Script
open Text (words)

variable {W : World}

/-! ## Literals -/

theorem stringNode_stringLiteral (value : Text) : StringNode (stringLiteral value) value :=
  .made (stringValue_quoted value)

theorem evaluates_stringLiteral {value t : Text} : Evaluates W (stringLiteral value) t ↔ t = value :=
  evaluates_string_iff (stringNode_stringLiteral value)

theorem evaluates_conditionalClass {test : Node} {name t : Text} :
    Evaluates W (conditionalClass test name) t ↔ ∃ holds, W.truth test holds ∧ t = if holds then name else [] := by
  unfold conditionalClass
  rw [evaluates_conditional_iff]
  refine exists_congr fun holds => and_congr_right' ?_
  cases holds with
  | true => exact evaluates_stringLiteral
  | false => exact evaluates_stringLiteral

/-! ## Texts with the same words -/

/-- texts with the same words, and with the same ones behind any other text -/
structure SameWords (s t : Text) : Prop where
  words : words s = words t
  front : s.head?.all isBlank = t.head?.all isBlank

namespace SameWords

variable {s t u : Text}

theorem refl (s : Text) : SameWords s s := ⟨rfl, rfl⟩

theorem symm (h : SameWords s t) : SameWords t s := ⟨h.words.symm, h.front.symm⟩

theorem trans (h : SameWords s t) (h' : SameWords t u) : SameWords s u :=
  ⟨h.words.trans h'.words, h.front.trans h'.front⟩

theorem cons (c : Char) (h : SameWords s t) : SameWords (c :: s) (c :: t) := by
  refine ⟨?_, rfl⟩
  cases hc : isBlank c with
  | true => rw [Text.words_cons_of_blank hc, Text.words_cons_of_blank hc, h.words]
  | false => rw [Text.words_cons_of_not_blank hc, Text.words_cons_of_not_blank hc, h.words, h.front]

theorem behind (u : Text) (h : SameWords s t) : SameWords (u ++ s) (u ++ t) := by
  induction u with
  | nil => exact h
  | cons c u ih => exact ih.cons c

/-- line ends are blanks, so other line ends make no difference -/
theorem lineFeeds (u : Text) (h : SameWords s t) : SameWords (lineFeeds u ++ s) (u ++ t) := by
  have hreturn : isBlank '\r' = true := by decide
  have hfeed : isBlank '\n' = true := by decide
  induction u using Script.lineFeeds.induct with
  | case1 => exact h
  | case2 u ih =>
    refine ⟨?_, rfl⟩
    have hleft : Text.words ('\n' :: (Script.lineFeeds u ++ s)) = Text.words (Script.lineFeeds u ++ s) :=
      Text.words_cons_of_blank hfeed _
    have hright : Text.words ('\r' :: '\n' :: (u ++ t)) = Text.words (u ++ t) := by
      rw [Text.words_cons_of_blank hreturn, Text.words_cons_of_blank hfeed]
    exact hleft.trans (ih.words.trans hright.symm)
  | case3 c u hnot ih =>
    rw [Script.lineFeeds]
    · by_cases hc : c = '\r'
      · subst hc
        rw [if_pos rfl]
        refine ⟨?_, rfl⟩
        have hleft : Text.words ('\n' :: (Script.lineFeeds u ++ s)) = Text.words (Script.lineFeeds u ++ s) :=
          Text.words_cons_of_blank hfeed _
        exact hleft.trans (ih.words.trans (Text.words_cons_of_blank hreturn (u ++ t)).symm)
      · rw [if_neg hc]
        exact ih.cons c
    · exact hnot

end SameWords

/-! ## Class templates -/

/-- the texts that a segment may give -/
def Segment.Gives (W : World) : Segment → Text → Prop
  | text t, s => s = t
  | expression e, s => Evaluates W e s

namespace Interleaved

variable {i : Interleaved} {s : Text}

theorem written_piecesFrom (t : Text) (rest : List (Node × Text)) :
    (piecesFrom t rest).map (·.written) = escapeTemplate t :: rest.map fun p => escapeTemplate p.2 := by
  induction rest generalizing t with
  | nil => rfl
  | cons p rest ih => rw [piecesFrom, List.map_cons, ih, List.map_cons, TemplatePiece.of]

/-- the pieces of a template are the texts, escaped -/
theorem template_eq (i : Interleaved) :
    i.template =
      .plain (.template (escapeTemplate i.first :: i.rest.map fun p => escapeTemplate p.2)) (i.rest.map Prod.fst) := by
  rw [template, pieces, written_piecesFrom]

/-- the texts that texts and expressions may give, but for blanks -/
def Gives (W : World) (i : Interleaved) (s : Text) : Prop := ∃ t, Evaluates W i.template t ∧ SameWords t s

/-- the first text stands in front of what the others give -/
theorem evaluatesPieces_first {first t : Text} {pieces : List Text} {es : List Node} :
    EvaluatesPieces W (escapeTemplate first :: pieces) es t ↔
      ∃ u, EvaluatesPieces W (escapeTemplate [] :: pieces) es u ∧ t = lineFeeds first ++ u := by
  constructor
  · intro h
    cases h with
    | last hcooked =>
      rw [hcooked.unique (cooked_escapeTemplate first)]
      exact ⟨[], .last (cooked_escapeTemplate []), (List.append_nil _).symm⟩
    | cons hcooked hvalue hrest =>
      rw [hcooked.unique (cooked_escapeTemplate first)]
      exact ⟨_, .cons (cooked_escapeTemplate []) hvalue hrest, rfl⟩
  · rintro ⟨u, h, rfl⟩
    cases h with
    | last hcooked =>
      rw [hcooked.unique (cooked_escapeTemplate [])]
      have hnothing : lineFeeds first ++ lineFeeds [] = lineFeeds first := List.append_nil _
      rw [hnothing]
      exact .last (cooked_escapeTemplate first)
    | cons hcooked hvalue hrest =>
      rw [hcooked.unique (cooked_escapeTemplate [])]
      have hwhole := EvaluatesPieces.cons (cooked_escapeTemplate first) hvalue hrest
      exact hwhole

theorem evaluates_first {first t : Text} {rest : List (Node × Text)} :
    Evaluates W (⟨first, rest⟩ : Interleaved).template t ↔
      ∃ u, Evaluates W (⟨[], rest⟩ : Interleaved).template u ∧ t = lineFeeds first ++ u := by
  simp only [template_eq, evaluates_template_iff]
  exact evaluatesPieces_first

theorem gives_empty : Gives W ⟨[], []⟩ s ↔ SameWords [] s := by
  unfold Gives
  simp only [template_eq, evaluates_template_iff]
  constructor
  · rintro ⟨t, h, hsame⟩
    cases h with
    | last hcooked =>
      rw [hcooked.unique (cooked_escapeTemplate [])] at hsame
      exact hsame
  · intro hsame
    exact ⟨[], .last (cooked_escapeTemplate []), hsame⟩

theorem gives_addText {t : Text} : (i.addText t).Gives W s ↔ ∃ u, i.Gives W u ∧ SameWords (t ++ u) s := by
  obtain ⟨first, rest⟩ := i
  constructor
  · rintro ⟨x, hx, hsame⟩
    obtain ⟨r, hr, rfl⟩ := evaluates_first.1 hx
    refine ⟨first ++ r, ⟨_, evaluates_first.2 ⟨r, hr, rfl⟩, .lineFeeds first (.refl r)⟩, ?_⟩
    rw [← List.append_assoc]
    exact (SameWords.lineFeeds (t ++ first) (.refl r)).symm.trans hsame
  · rintro ⟨u, ⟨x, hx, hxu⟩, hsame⟩
    obtain ⟨r, hr, rfl⟩ := evaluates_first.1 hx
    refine ⟨_, evaluates_first.2 ⟨r, hr, rfl⟩, ?_⟩
    have hfirst : SameWords (first ++ r) u := (SameWords.lineFeeds first (.refl r)).symm.trans hxu
    have hwhole := SameWords.lineFeeds (t ++ first) (.refl r)
    rw [List.append_assoc] at hwhole
    exact hwhole.trans ((hfirst.behind t).trans hsame)

theorem gives_addExpression {e : Node} :
    (i.addExpression e).Gives W s ↔ ∃ v u, Evaluates W e v ∧ i.Gives W u ∧ SameWords (v ++ u) s := by
  unfold Gives
  have hwhole (t : Text) : Evaluates W (i.addExpression e).template t ↔
      ∃ v u, Evaluates W e v ∧ Evaluates W i.template u ∧ t = v ++ u := by
    simp only [template_eq, evaluates_template_iff]
    constructor
    · intro h
      cases h with
      | cons hcooked hvalue hrest =>
        rw [hcooked.unique (cooked_escapeTemplate [])]
        exact ⟨_, _, hvalue, hrest, rfl⟩
    · rintro ⟨v, u, hvalue, hrest, rfl⟩
      exact .cons (cooked_escapeTemplate []) hvalue hrest
  constructor
  · rintro ⟨t, ht, hsame⟩
    obtain ⟨v, u, hvalue, hrest, rfl⟩ := (hwhole t).1 ht
    exact ⟨v, u, hvalue, ⟨u, hrest, .refl u⟩, hsame⟩
  · rintro ⟨v, u, hvalue, ⟨x, hx, hxu⟩, hsame⟩
    exact ⟨v ++ x, (hwhole _).2 ⟨v, x, hvalue, hx, rfl⟩, (hxu.behind v).trans hsame⟩

theorem gives_add {segment : Segment} :
    (i.add segment).Gives W s ↔ ∃ v u, segment.Gives W v ∧ i.Gives W u ∧ SameWords (v ++ u) s := by
  cases segment with
  | text t =>
    rw [add, gives_addText]
    constructor
    · rintro ⟨u, hu, hsame⟩
      exact ⟨t, u, rfl, hu, hsame⟩
    · rintro ⟨v, u, rfl, hu, hsame⟩
      exact ⟨u, hu, hsame⟩
  | expression e => exact gives_addExpression

/-- segments give what each gives, with a space between each two -/
theorem gives_ofSegments {segments : List Segment} :
    (ofSegments segments).Gives W s ↔
      ∃ values, List.Forall₂ (Segment.Gives W) segments values ∧ SameWords ([' '].intercalate values) s := by
  induction segments generalizing s with
  | nil =>
    rw [ofSegments, gives_empty]
    constructor
    · exact fun h => ⟨[], .nil, h⟩
    · rintro ⟨values, hvalues, h⟩
      cases hvalues
      exact h
  | cons segment rest ih =>
    cases rest with
    | nil =>
      rw [ofSegments, gives_add]
      constructor
      · rintro ⟨v, u, hv, hu, hsame⟩
        have hnothing := (gives_empty.1 hu).symm.behind v
        rw [List.append_nil] at hnothing
        exact ⟨[v], .cons hv .nil, by simpa using hnothing.symm.trans hsame⟩
      · rintro ⟨values, hvalues, hsame⟩
        cases hvalues with
        | cons hv hnil =>
          cases hnil
          exact ⟨_, [], hv, gives_empty.2 (.refl []), by simpa using hsame⟩
    | cons next more =>
      rw [ofSegments, gives_add]
      · simp only [gives_addText]
        constructor
        · rintro ⟨v, u, hv, ⟨x, hx, hxu⟩, hsame⟩
          obtain ⟨values, hvalues, hvx⟩ := ih.1 hx
          obtain ⟨value, values, -, -, rfl⟩ := List.forall₂_cons_left_iff.1 hvalues
          refine ⟨v :: value :: values, .cons hv hvalues, ?_⟩
          rw [List.intercalate_cons_cons, List.append_assoc]
          exact (((hvx.behind [' ']).trans hxu).behind v).trans hsame
        · rintro ⟨values, hvalues, hsame⟩
          obtain ⟨v, values, hv, hmore, rfl⟩ := List.forall₂_cons_left_iff.1 hvalues
          obtain ⟨value, values, -, -, rfl⟩ := List.forall₂_cons_left_iff.1 hmore
          rw [List.intercalate_cons_cons, List.append_assoc] at hsame
          exact ⟨v, _, hv, ⟨_, ih.2 ⟨_, hmore, .refl _⟩, .refl _⟩, hsame⟩
      · intro h
        cases h

end Interleaved

/-- **The class names of a template** are those that its segments give, one after the other. -/
theorem classTemplate_names {segments : List Segment} {names : List Text} :
    (∃ t, Evaluates W (classTemplate segments) t ∧ words t = names) ↔
      ∃ values, List.Forall₂ (Segment.Gives W) segments values ∧ names = values.flatMap words := by
  constructor
  · rintro ⟨t, ht, rfl⟩
    obtain ⟨values, hvalues, hsame⟩ := Interleaved.gives_ofSegments.1 ⟨t, ht, .refl t⟩
    exact ⟨values, hvalues, by rw [← hsame.words, Text.words_intercalate]⟩
  · rintro ⟨values, hvalues, rfl⟩
    obtain ⟨t, ht, hsame⟩ := Interleaved.gives_ofSegments.2 ⟨values, hvalues, .refl _⟩
    exact ⟨t, ht, by rw [hsame.words, Text.words_intercalate]⟩

end TerseStyle.Rewrite

/-
A rewrite of a tree. Settled elements stay as they are; where an element is not settled, the first such element becomes
so, whatever comes behind it.

Results:
- `rewriteNode_settled`: a tree of settled elements is left alone.
- `rewriteNode_cases`: any other tree comes out with another row of elements, and something is counted.
- `rewriteInside_follows`: attributes keep their names, and the texts that they were written as.
-/
import Mathlib.Data.List.Forall2
import TerseStyle.Proofs.Rewrite.Element

namespace TerseStyle.Rewrite

open Script

variable {settings : Settings} {language : Language}

/-! ## Settled trees -/

mutual

/-- a tree of settled elements is left alone -/
theorem rewriteNode_settled : ∀ (e : Node) (before : Trace), Settled settings e.openings →
    Ends (rewriteNode settings language e) before e before
  | .plain _ parts, before, h => rewriteNode_plain_ends.2 ⟨parts, rewriteNodes_settled parts before h, rfl⟩
  | .element tag types attributes closed children, before, h => by
    rw [Node.openings, settled_cons, settled_append] at h
    obtain ⟨hown, hinside, hchildren⟩ := h
    exact rewriteNode_element_ends.2 ⟨attributes, before, attributes, before, children,
      rewriteInside_settled attributes before hinside, rewriteAttributes_settled hown before,
      rewriteNodes_settled children before hchildren, rfl⟩

theorem rewriteNodes_settled : ∀ (es : List Node) (before : Trace), Settled settings (Node.openingsAll es) →
    Ends (rewriteNodes settings language es) before es before
  | [], _, _ => rewriteNodes_nil_ends.2 ⟨rfl, rfl⟩
  | e :: rest, before, h => by
    rw [Node.openingsAll, settled_append] at h
    exact rewriteNodes_cons_ends.2 ⟨e, before, rest, rewriteNode_settled e before h.1,
      rewriteNodes_settled rest before h.2, rfl⟩

theorem rewriteInside_settled : ∀ (as : List Attribute) (before : Trace), Settled settings (Attribute.openingsAll as) →
    Ends (rewriteInside settings language as) before as before
  | [], _, _ => rewriteInside_nil_ends.2 ⟨rfl, rfl⟩
  | a :: rest, before, h => by
    rw [Attribute.openingsAll, settled_append] at h
    exact rewriteInside_cons_ends.2 ⟨a, before, rest, rewriteInAttribute_settled a before h.1,
      rewriteInside_settled rest before h.2, rfl⟩

theorem rewriteInAttribute_settled : ∀ (a : Attribute) (before : Trace), Settled settings a.openings →
    Ends (rewriteInAttribute settings language a) before a before
  | .spread e, before, h => rewriteInAttribute_spread_ends.2 ⟨e, rewriteNode_settled e before h, rfl⟩
  | .named _ value, before, h => rewriteInAttribute_named_ends.2 ⟨value, rewriteInValue_settled value before h, rfl⟩

theorem rewriteInValue_settled : ∀ (v : Value) (before : Trace), Settled settings v.openings →
    Ends (rewriteInValue settings language v) before v before
  | .missing, _, _ => rewriteInValue_missing_ends.2 ⟨rfl, rfl⟩
  | .quoted _, _, _ => rewriteInValue_quoted_ends.2 ⟨rfl, rfl⟩
  | .braced e _, before, h => rewriteInValue_braced_ends.2 ⟨e, rewriteNode_settled e before h, rfl⟩
  | .markup e _, before, h => rewriteInValue_markup_ends.2 ⟨e, rewriteNode_settled e before h, rfl⟩

end

/-! ## Names and sources -/

/-- an attribute after the elements inside it were rewritten: it still has its name and the texts it was written as -/
structure Follows (a b : Attribute) : Prop where
  name : b.name? = a.name?
  expression : expressionSource? b.value = expressionSource? a.value
  written : writtenSource? b.value = writtenSource? a.value

variable {before after : Trace}

theorem rewriteInAttribute_follows {a b : Attribute}
    (h : Ends (rewriteInAttribute settings language a) before b after) : Follows a b := by
  cases a with
  | spread e =>
    obtain ⟨e', _, rfl⟩ := rewriteInAttribute_spread_ends.1 h
    exact ⟨rfl, rfl, rfl⟩
  | named name value =>
    obtain ⟨value', hvalue, rfl⟩ := rewriteInAttribute_named_ends.1 h
    cases value with
    | missing =>
      obtain ⟨rfl, _⟩ := rewriteInValue_missing_ends.1 hvalue
      exact ⟨rfl, rfl, rfl⟩
    | quoted written =>
      obtain ⟨rfl, _⟩ := rewriteInValue_quoted_ends.1 hvalue
      exact ⟨rfl, rfl, rfl⟩
    | braced e source =>
      -- the expression changes, the text that it was written as does not
      obtain ⟨e', _, rfl⟩ := rewriteInValue_braced_ends.1 hvalue
      exact ⟨rfl, rfl, rfl⟩
    | markup e source =>
      obtain ⟨e', _, rfl⟩ := rewriteInValue_markup_ends.1 hvalue
      exact ⟨rfl, rfl, rfl⟩

theorem rewriteInside_follows {as bs : List Attribute} (h : Ends (rewriteInside settings language as) before bs after) :
    List.Forall₂ Follows as bs := by
  induction as generalizing bs before with
  | nil =>
    obtain ⟨rfl, _⟩ := rewriteInside_nil_ends.1 h
    exact .nil
  | cons a rest ih =>
    obtain ⟨b, mid, rest', hb, hrest, rfl⟩ := rewriteInside_cons_ends.1 h
    exact .cons (rewriteInAttribute_follows hb) (ih hrest)

theorem shape_of_follows {as bs : List Attribute} (h : List.Forall₂ Follows as bs) (tag : TagName) :
    shape ⟨tag, as⟩ = shape ⟨tag, bs⟩ := by
  have hnames : as.map (·.name?) = bs.map (·.name?) := by
    induction h with
    | nil => rfl
    | cons hab _ ih => rw [List.map_cons, List.map_cons, ih, hab.name]
  rw [shape, shape, hnames]

/-! ## Trees that are not settled -/

/-- what a part of a tree with these elements comes to: it is left alone if they are settled, else the first that is not
becomes so and something is counted -/
def LeftOrDiverges {α : Type} (settings : Settings) (openings : α → List Opening) (x y : α) (before after : Trace) :
    Prop :=
  (Settled settings (openings x) ∧ y = x ∧ after = before) ∨
    (Diverges settings (openings x) (openings y) ∧ before.rewritten < after.rewritten)

theorem LeftOrDiverges.rewritten_le {α : Type} {openings : α → List Opening} {x y : α}
    (h : LeftOrDiverges settings openings x y before after) : before.rewritten ≤ after.rewritten := by
  rcases h with ⟨_, _, rfl⟩ | ⟨_, hlt⟩
  · exact Nat.le_refl _
  · exact Nat.le_of_lt hlt

/-- a part and a part behind it -/
theorem LeftOrDiverges.pair {α β : Type} {first : α → List Opening} {second : β → List Opening} {x x' : α} {y y' : β}
    {mid : Trace} (hx : LeftOrDiverges settings first x x' before mid)
    (hy : LeftOrDiverges settings second y y' mid after) :
    LeftOrDiverges settings (fun p : α × β => first p.1 ++ second p.2) (x, y) (x', y') before after := by
  have hle := hy.rewritten_le
  rcases hx with ⟨hsettled, rfl, rfl⟩ | ⟨hdiverges, hlt⟩
  · rcases hy with ⟨hsettled', rfl, rfl⟩ | ⟨hdiverges, hlt⟩
    · exact Or.inl ⟨settled_append.2 ⟨hsettled, hsettled'⟩, rfl, rfl⟩
    · exact Or.inr ⟨hdiverges.behind _, hlt⟩
  · exact Or.inr ⟨hdiverges.append _ _, Nat.lt_of_lt_of_le hlt hle⟩

/-- a whole with the elements of a part -/
theorem LeftOrDiverges.whole {α β : Type} {part : α → List Opening} {all : β → List Opening} {x y : α}
    (h : LeftOrDiverges settings part x y before after) (f : α → β) (hf : ∀ x, all (f x) = part x) :
    LeftOrDiverges settings all (f x) (f y) before after := by
  unfold LeftOrDiverges
  rw [hf, hf]
  rcases h with ⟨hsettled, rfl, rfl⟩ | hdiverges
  · exact Or.inl ⟨hsettled, rfl, rfl⟩
  · exact Or.inr hdiverges

/-- an element with what is inside its attributes and behind it -/
theorem LeftOrDiverges.element {tag : TagName} {types children children' : List Node} {as inside own : List Attribute}
    {closed : Bool} {mid mid' : Trace} (hapart : ChainsApart settings) (hfollows : List.Forall₂ Follows as inside)
    (hinside : LeftOrDiverges settings Attribute.openingsAll as inside before mid)
    (hown : Ends (rewriteAttributes settings language tag inside) mid own mid')
    (hchildren : LeftOrDiverges settings Node.openingsAll children children' mid' after) :
    LeftOrDiverges settings Node.openings (.element tag types as closed children)
      (.element tag types own closed children') before after := by
  have hshape := shape_of_follows hfollows tag
  rcases rewriteAttributes_cases hapart hown with ⟨hsettled, rfl, rfl⟩ | ⟨hnot, hsettled, hlt⟩
  · rcases hinside.pair hchildren with ⟨hparts, heq, rfl⟩ | ⟨hdiverges, hlt⟩
    · cases heq
      exact Or.inl ⟨settled_cons.2 ⟨hsettled, hparts⟩, rfl, rfl⟩
    · exact Or.inr ⟨.later hshape hdiverges, hlt⟩
  · -- the element itself is the first to differ, whatever happens inside it and behind it
    rw [← isSettled_congr hshape] at hnot
    have := hinside.rewritten_le
    have := hchildren.rewritten_le
    exact Or.inr ⟨.here hnot hsettled, by omega⟩

mutual

/-- a tree is left alone, or comes out with another row of elements -/
theorem rewriteNode_cases (hapart : ChainsApart settings) : ∀ (e : Node) {t : Node} {before after : Trace},
    Ends (rewriteNode settings language e) before t after → LeftOrDiverges settings Node.openings e t before after
  | .plain form parts, _, _, _, h => by
    obtain ⟨parts', hparts, rfl⟩ := rewriteNode_plain_ends.1 h
    exact (rewriteNodes_cases hapart parts hparts).whole (Node.plain form) fun _ => rfl
  | .element tag types attributes closed children, _, _, _, h => by
    obtain ⟨inside, mid, own, mid', children', hinside, hown, hchildren, rfl⟩ := rewriteNode_element_ends.1 h
    exact LeftOrDiverges.element hapart (rewriteInside_follows hinside) (rewriteInside_cases hapart attributes hinside)
      hown (rewriteNodes_cases hapart children hchildren)

theorem rewriteNodes_cases (hapart : ChainsApart settings) : ∀ (es : List Node) {ts : List Node} {before after : Trace},
    Ends (rewriteNodes settings language es) before ts after →
      LeftOrDiverges settings Node.openingsAll es ts before after
  | [], _, _, _, h => by
    obtain ⟨rfl, rfl⟩ := rewriteNodes_nil_ends.1 h
    exact Or.inl ⟨settled_nil, rfl, rfl⟩
  | e :: rest, _, _, _, h => by
    obtain ⟨e', mid, rest', he, hrest, rfl⟩ := rewriteNodes_cons_ends.1 h
    exact ((rewriteNode_cases hapart e he).pair (rewriteNodes_cases hapart rest hrest)).whole
      (fun p : Node × List Node => p.1 :: p.2) fun _ => rfl

theorem rewriteInside_cases (hapart : ChainsApart settings) :
    ∀ (as : List Attribute) {bs : List Attribute} {before after : Trace},
      Ends (rewriteInside settings language as) before bs after →
        LeftOrDiverges settings Attribute.openingsAll as bs before after
  | [], _, _, _, h => by
    obtain ⟨rfl, rfl⟩ := rewriteInside_nil_ends.1 h
    exact Or.inl ⟨settled_nil, rfl, rfl⟩
  | a :: rest, _, _, _, h => by
    obtain ⟨a', mid, rest', ha, hrest, rfl⟩ := rewriteInside_cons_ends.1 h
    exact ((rewriteInAttribute_cases hapart a ha).pair (rewriteInside_cases hapart rest hrest)).whole
      (fun p : Attribute × List Attribute => p.1 :: p.2) fun _ => rfl

theorem rewriteInAttribute_cases (hapart : ChainsApart settings) :
    ∀ (a : Attribute) {b : Attribute} {before after : Trace},
      Ends (rewriteInAttribute settings language a) before b after →
        LeftOrDiverges settings Attribute.openings a b before after
  | .spread e, _, _, _, h => by
    obtain ⟨e', he, rfl⟩ := rewriteInAttribute_spread_ends.1 h
    exact (rewriteNode_cases hapart e he).whole Attribute.spread fun _ => rfl
  | .named name value, _, _, _, h => by
    obtain ⟨value', hvalue, rfl⟩ := rewriteInAttribute_named_ends.1 h
    exact (rewriteInValue_cases hapart value hvalue).whole (Attribute.named name) fun _ => rfl

theorem rewriteInValue_cases (hapart : ChainsApart settings) :
    ∀ (v : Value) {w : Value} {before after : Trace}, Ends (rewriteInValue settings language v) before w after →
      LeftOrDiverges settings Value.openings v w before after
  | .missing, _, _, _, h => by
    obtain ⟨rfl, rfl⟩ := rewriteInValue_missing_ends.1 h
    exact Or.inl ⟨settled_nil, rfl, rfl⟩
  | .quoted _, _, _, _, h => by
    obtain ⟨rfl, rfl⟩ := rewriteInValue_quoted_ends.1 h
    exact Or.inl ⟨settled_nil, rfl, rfl⟩
  | .braced e source, _, _, _, h => by
    obtain ⟨e', he, rfl⟩ := rewriteInValue_braced_ends.1 h
    exact (rewriteNode_cases hapart e he).whole (Value.braced · source) fun _ => rfl
  | .markup e source, _, _, _, h => by
    obtain ⟨e', he, rfl⟩ := rewriteInValue_markup_ends.1 h
    exact (rewriteNode_cases hapart e he).whole (Value.markup · source) fun _ => rfl

end

end TerseStyle.Rewrite

/-
What a rewrite leaves alone. A tree comes out with the same forms, names and sources all over; what differs is the
attributes of intrinsic elements that carry shorthand, wherever these stand, also inside components and inside each other.
Each of these elements is counted, and a script in which none is counted is not printed anew.

Results:
- `rewriteAttributes_own`: what happens to the attributes of one element, and whether it is counted.
- `rewriteNode_framed` and its siblings: the same over a tree, by induction.
- `rewriteIn_frame`: a script without shorthand comes out as it is; any other one is printed from such a tree.
-/
import TerseStyle.Proofs.Rewrite.Idempotence

namespace TerseStyle.Rewrite

open Script

/-! ## Framed trees -/

/-- what an element's own attributes come to: `inside` are the ones that were read, with the elements inside them
rewritten. They stay unless the element is intrinsic and has shorthand among those that were read. -/
inductive Own (settings : Settings) (language : Language) (tag : TagName) (read inside : List Attribute) :
    List Attribute → Prop where
  | component (h : tag.isIntrinsic = false) : Own settings language tag read inside inside
  | bare (h : ∀ a ∈ read, isShorthand settings a = false) : Own settings language tag read inside inside
  | rewritten {own : List Attribute} {before after : Trace} (intrinsic : tag.isIntrinsic = true)
      (shorthand : ∃ a ∈ read, isShorthand settings a = true)
      (h : Ends (rewriteAttributes settings language tag inside) before own after) :
      Own settings language tag read inside own

mutual

/-- a tree that differs from another one in the attributes of intrinsic elements with shorthand alone -/
inductive Framed (settings : Settings) (language : Language) : Node → Node → Prop where
  | plain {form : Form} {parts parts' : List Node} (hparts : List.Forall₂ (Framed settings language) parts parts') :
      Framed settings language (.plain form parts) (.plain form parts')
  | element {tag : TagName} {types children children' : List Node} {read inside own : List Attribute} {closed : Bool}
      (hinside : List.Forall₂ (FramedAttribute settings language) read inside)
      (hown : Own settings language tag read inside own)
      (hchildren : List.Forall₂ (Framed settings language) children children') :
      Framed settings language (.element tag types read closed children) (.element tag types own closed children')

/-- an attribute that differs from another one in such elements inside it alone -/
inductive FramedAttribute (settings : Settings) (language : Language) : Attribute → Attribute → Prop where
  | spread {e e' : Node} (h : Framed settings language e e') :
      FramedAttribute settings language (.spread e) (.spread e')
  | named {name : Text} {value value' : Value} (h : FramedValue settings language value value') :
      FramedAttribute settings language (.named name value) (.named name value')

/-- the same for the value of an attribute; the text that it was written as stays -/
inductive FramedValue (settings : Settings) (language : Language) : Value → Value → Prop where
  | missing : FramedValue settings language .missing .missing
  | quoted {written : Text} : FramedValue settings language (.quoted written) (.quoted written)
  | braced {e e' : Node} {source : Text} (h : Framed settings language e e') :
      FramedValue settings language (.braced e source) (.braced e' source)
  | markup {e e' : Node} {source : Text} (h : Framed settings language e e') :
      FramedValue settings language (.markup e source) (.markup e' source)

end

/-- the number of elements that a rewrite has something to do on -/
def unsettled (settings : Settings) (os : List Opening) : Nat := os.countP fun o => !decide (IsSettled settings o)

variable {settings : Settings} {language : Language} {tag : TagName} {before after : Trace}

theorem unsettled_append (os ps : List Opening) :
    unsettled settings (os ++ ps) = unsettled settings os + unsettled settings ps := List.countP_append ..

theorem unsettled_eq_zero {os : List Opening} : unsettled settings os = 0 ↔ Settled settings os := by
  simp [unsettled, Settled, List.countP_eq_zero]

/-! ## One element -/

/-- the attributes of an element stay unless it is intrinsic and has shorthand, and it is counted unless they stay -/
theorem rewriteAttributes_own {read inside own : List Attribute} (hfollows : List.Forall₂ Follows read inside)
    (h : Ends (rewriteAttributes settings language tag inside) before own after) :
    Own settings language tag read inside own ∧
      after.rewritten = before.rewritten + unsettled settings [⟨tag, read⟩] := by
  have hshape : IsSettled settings ⟨tag, read⟩ ↔ IsSettled settings ⟨tag, inside⟩ :=
    isSettled_congr (shape_of_follows hfollows tag)
  by_cases hsettled : IsSettled settings ⟨tag, read⟩
  · obtain ⟨rfl, rfl⟩ := h.unique (rewriteAttributes_settled (hshape.mp hsettled) before)
    have hcount : unsettled settings [⟨tag, read⟩] = 0 := unsettled_eq_zero.mpr (settled_cons.mpr ⟨hsettled, settled_nil⟩)
    refine ⟨?_, by rw [hcount, Nat.add_zero]⟩
    cases hintrinsic : tag.isIntrinsic with
    | false => exact .component hintrinsic
    | true => exact .bare (hsettled hintrinsic)
  · obtain ⟨hintrinsic, hcount⟩ := rewriteAttributes_count h (fun hinside => hsettled (hshape.mpr hinside))
    have hone : unsettled settings [⟨tag, read⟩] = 1 := by simp [unsettled, hsettled]
    refine ⟨.rewritten hintrinsic ?_ h, by rw [hcount, hone]⟩
    by_contra hnone
    apply hsettled
    intro _ a ha
    by_contra hshorthand
    exact hnone ⟨a, ha, by simpa using hshorthand⟩

/-! ## Trees -/

mutual

/-- a rewrite of a tree changes the attributes of its intrinsic elements with shorthand alone, and counts these -/
theorem rewriteNode_framed : ∀ (e : Node) {t : Node} {before after : Trace},
    Ends (rewriteNode settings language e) before t after →
      Framed settings language e t ∧ after.rewritten = before.rewritten + unsettled settings e.openings
  | .plain form parts, _, _, _, h => by
    obtain ⟨parts', hparts, rfl⟩ := rewriteNode_plain_ends.1 h
    obtain ⟨hframed, hcount⟩ := rewriteNodes_framed parts hparts
    exact ⟨.plain hframed, hcount⟩
  | .element tag types read closed children, _, _, _, h => by
    obtain ⟨inside, mid, own, mid', children', hinside, hown, hchildren, rfl⟩ := rewriteNode_element_ends.1 h
    obtain ⟨hinside', hinsideCount⟩ := rewriteInside_framed read hinside
    obtain ⟨hown', hownCount⟩ := rewriteAttributes_own (rewriteInside_follows hinside) hown
    obtain ⟨hchildren', hchildrenCount⟩ := rewriteNodes_framed children hchildren
    refine ⟨.element hinside' hown' hchildren', ?_⟩
    rw [Node.openings, ← List.singleton_append, unsettled_append, unsettled_append]
    omega

theorem rewriteNodes_framed : ∀ (es : List Node) {ts : List Node} {before after : Trace},
    Ends (rewriteNodes settings language es) before ts after →
      List.Forall₂ (Framed settings language) es ts ∧
        after.rewritten = before.rewritten + unsettled settings (Node.openingsAll es)
  | [], _, _, _, h => by
    obtain ⟨rfl, rfl⟩ := rewriteNodes_nil_ends.1 h
    exact ⟨.nil, rfl⟩
  | e :: rest, _, _, _, h => by
    obtain ⟨e', mid, rest', he, hrest, rfl⟩ := rewriteNodes_cons_ends.1 h
    obtain ⟨hframed, hcount⟩ := rewriteNode_framed e he
    obtain ⟨hframed', hcount'⟩ := rewriteNodes_framed rest hrest
    refine ⟨.cons hframed hframed', ?_⟩
    rw [Node.openingsAll, unsettled_append]
    omega

theorem rewriteInside_framed : ∀ (as : List Attribute) {bs : List Attribute} {before after : Trace},
    Ends (rewriteInside settings language as) before bs after →
      List.Forall₂ (FramedAttribute settings language) as bs ∧
        after.rewritten = before.rewritten + unsettled settings (Attribute.openingsAll as)
  | [], _, _, _, h => by
    obtain ⟨rfl, rfl⟩ := rewriteInside_nil_ends.1 h
    exact ⟨.nil, rfl⟩
  | a :: rest, _, _, _, h => by
    obtain ⟨a', mid, rest', ha, hrest, rfl⟩ := rewriteInside_cons_ends.1 h
    obtain ⟨hframed, hcount⟩ := rewriteInAttribute_framed a ha
    obtain ⟨hframed', hcount'⟩ := rewriteInside_framed rest hrest
    refine ⟨.cons hframed hframed', ?_⟩
    rw [Attribute.openingsAll, unsettled_append]
    omega

theorem rewriteInAttribute_framed : ∀ (a : Attribute) {b : Attribute} {before after : Trace},
    Ends (rewriteInAttribute settings language a) before b after →
      FramedAttribute settings language a b ∧ after.rewritten = before.rewritten + unsettled settings a.openings
  | .spread e, _, _, _, h => by
    obtain ⟨e', he, rfl⟩ := rewriteInAttribute_spread_ends.1 h
    obtain ⟨hframed, hcount⟩ := rewriteNode_framed e he
    exact ⟨.spread hframed, hcount⟩
  | .named name value, _, _, _, h => by
    obtain ⟨value', hvalue, rfl⟩ := rewriteInAttribute_named_ends.1 h
    obtain ⟨hframed, hcount⟩ := rewriteInValue_framed value hvalue
    exact ⟨.named hframed, hcount⟩

theorem rewriteInValue_framed : ∀ (v : Value) {w : Value} {before after : Trace},
    Ends (rewriteInValue settings language v) before w after →
      FramedValue settings language v w ∧ after.rewritten = before.rewritten + unsettled settings v.openings
  | .missing, _, _, _, h => by
    obtain ⟨rfl, rfl⟩ := rewriteInValue_missing_ends.1 h
    exact ⟨.missing, rfl⟩
  | .quoted _, _, _, _, h => by
    obtain ⟨rfl, rfl⟩ := rewriteInValue_quoted_ends.1 h
    exact ⟨.quoted, rfl⟩
  | .braced e _, _, _, _, h => by
    obtain ⟨e', he, rfl⟩ := rewriteInValue_braced_ends.1 h
    obtain ⟨hframed, hcount⟩ := rewriteNode_framed e he
    exact ⟨.braced hframed, hcount⟩
  | .markup e _, _, _, _, h => by
    obtain ⟨e', he, rfl⟩ := rewriteInValue_markup_ends.1 h
    obtain ⟨hframed, hcount⟩ := rewriteNode_framed e he
    exact ⟨.markup hframed, hcount⟩

end

/-! ## Scripts -/

/-- **What a rewrite leaves alone.** Under any settings, a script whose intrinsic elements carry no shorthand is rewritten
to itself. Where any script is rewritten, its tree comes out with other attributes on the intrinsic elements that carry
shorthand, all of which are counted, and is otherwise the same, on components too; the script is what it was if nothing is
counted, else what is printed of the tree. -/
theorem rewriteIn_frame (language : Language) (settings : Settings) {file source : Text} {tree : Node}
    (h : language.script source = .ok tree) :
    (Settled settings tree.openings → (rewriteIn language settings file source).result = .ok source) ∧
      ∀ output, (rewriteIn language settings file source).result = .ok output →
        ∃ t trace, rewriteTree settings language tree = (.ok t, trace) ∧ Framed settings language tree t ∧
          trace.rewritten = unsettled settings tree.openings ∧
          output = if trace.rewritten = 0 then source else language.print t := by
  refine ⟨rewriteIn_settled h, ?_⟩
  intro output houtput
  obtain ⟨tree', t, trace, htree', hrun, hprinted⟩ := rewriteIn_ok houtput
  rw [h] at htree'
  cases htree'
  obtain ⟨hframed, hcount⟩ := rewriteNode_framed tree hrun
  rw [Nat.zero_add] at hcount
  exact ⟨t, trace, hrun, hframed, hcount, hprinted⟩

/-- a script that is read and passes a test -/
theorem exists_script {source : Text} {p : Node → Bool} (h : (language.script source).toOption.any p = true) :
    ∃ tree, language.script source = .ok tree ∧ p tree = true := by
  cases hscript : language.script source with
  | error offset => simp [hscript, Except.toOption] at h
  | ok tree => exact ⟨tree, rfl, by simpa [hscript, Except.toOption] using h⟩

/-- components with shorthand around intrinsic elements, one of them with a marker -/
def componentSource : Text := "<A $x b=\x7b<p $y/>\x7d><M.N ss=\x7bz\x7d/></A>".toList

/-- the same script rewritten: the components keep their shorthand -/
def componentOutput : Text := "<A $x b=\x7b<p class=\x7b\x60y\x60\x7d/>\x7d><M.N ss=\x7bz\x7d/></A>;\n".toList

/-- a component alone, and no semicolon behind it -/
def lonelySource : Text := "x = <A  $x/>".toList

/-- components keep their shorthand while the element between them is rewritten; alone they leave a script as it is -/
theorem rewriteIn_frame_components :
    let language := Language.ofFile "a.tsx".toList
    (∃ tree t trace, language.script componentSource = .ok tree ∧
      rewriteTree .standard language tree = (.ok t, trace) ∧ Framed .standard language tree t ∧
      trace.rewritten = 1 ∧ language.print t = componentOutput) ∧
      ∃ tree, language.script lonelySource = .ok tree ∧ Settled .standard tree.openings ∧
        (rewriteIn language .standard "a.tsx".toList lonelySource).result = .ok lonelySource := by
  intro language
  have hread : (language.script componentSource).toOption.any
      (fun tree => unsettled .standard tree.openings = 1) = true := by decide +kernel
  have houtput : (rewriteIn language .standard "a.tsx".toList componentSource).result = .ok componentOutput := by
    decide +kernel
  have hlonely : (language.script lonelySource).toOption.any
      (fun tree => decide (Settled .standard tree.openings)) = true := by decide +kernel
  obtain ⟨tree, htree, hcount⟩ := exists_script hread
  obtain ⟨lonely, hlonelyTree, hsettled⟩ := exists_script hlonely
  obtain ⟨t, trace, hrun, hframed, hrewritten, hprinted⟩ :=
    (rewriteIn_frame language .standard htree).2 componentOutput houtput
  have hone : trace.rewritten = 1 := hrewritten.trans (by simpa using hcount)
  rw [hone, if_neg Nat.one_ne_zero] at hprinted
  have hsettled : Settled .standard lonely.openings := by simpa using hsettled
  exact ⟨⟨tree, t, trace, htree, hrun, hframed, hone, hprinted.symm⟩,
    lonely, hlonelyTree, hsettled, (rewriteIn_frame language .standard hlonelyTree).1 hsettled⟩

end TerseStyle.Rewrite

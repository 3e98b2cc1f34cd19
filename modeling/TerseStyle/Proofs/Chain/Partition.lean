/-
The three outputs of resolution. Each candidate gives one piece, and the pieces are sorted into class fragments, style
properties and notices without leaving their order. Which output a candidate goes to depends on the vocabulary and on
what gates it, not on the candidates around it, so outcomes can be resolved part by part.

Results:
- `Candidate.resolve_becomes`: a candidate becomes one property or one fragment, and a notice goes with its fragment.
- `resolveAll_ok_iff`: the pieces are those of each candidate.
- `resolve_partition`: what a successful resolution outputs, as a whole and for a concatenation.
-/
import TerseStyle.Proofs.Chain.Template
import TerseStyle.Proofs.Chain.Gating

namespace TerseStyle.Chain

variable {v : Vocabulary} {arguments : List Argument} {c : Candidate} {piece : Piece}

/-! ## Where a candidate goes -/

namespace Candidate

/-- the argument that gates a candidate -/
def GatedBy (arguments : List Argument) (c : Candidate) (a : Argument) : Prop :=
  ∃ index, c.gate = .argument index ∧ arguments[index]? = some a

/-- a candidate without a class, gated by a variable -/
def Styles (v : Vocabulary) (arguments : List Argument) (c : Candidate) (a : Argument) : Prop :=
  v.classOf? c.key = none ∧ c.GatedBy arguments a ∧ a.kind = .variable

/-- a candidate without a class that a class is made up for: no argument gates it and it is not the implicit class, or a
constant gates it and it has no property prefix either -/
def Unlisted (v : Vocabulary) (arguments : List Argument) (c : Candidate) : Prop :=
  v.classOf? c.key = none ∧
    ((c.gate = .always ∧ ¬(c.key = implicitKey ∧ c.responsive = false)) ∨
      ∃ a, c.GatedBy arguments a ∧ a.kind = .constant ∧ v.prefixOf? c.key = none)

/-- what becomes of a candidate -/
structure Becomes (v : Vocabulary) (arguments : List Argument) (c : Candidate) (piece : Piece) : Prop where
  resolve : c.resolve v arguments = .ok piece
  /-- one property and no fragment -/
  style : ∀ a, c.Styles v arguments a →
    piece.fragment? = none ∧ piece.declaration? = some (.property c.key (Text.trim a.raw))
  /-- one fragment and no property -/
  fragment : (∀ a, ¬c.Styles v arguments a) → piece.fragment?.isSome = true ∧ piece.declaration? = none
  notice : piece.notice?.isSome = true ↔ c.Unlisted v arguments
  /-- the notice is about the key, and tells the fragment itself -/
  fallback : ∀ n, piece.notice? = some n → n.key = c.key ∧ piece.fragment? = some n.fallback

theorem GatedBy.unique {a b : Argument} (ha : c.GatedBy arguments a) (hb : c.GatedBy arguments b) : a = b := by
  obtain ⟨index, hgate, hat⟩ := ha
  obtain ⟨index', hgate', hat'⟩ := hb
  cases hgate.symm.trans hgate'
  exact Option.some.inj (hat.symm.trans hat')

theorem not_gatedBy_of_always (h : c.gate = .always) (a : Argument) : ¬c.GatedBy arguments a := by
  rintro ⟨index, hgate, _⟩
  cases h.symm.trans hgate

/-- a fragment without a notice -/
theorem Becomes.quiet {f : Text} (h : c.resolve v arguments = .ok (.fragment f none))
    (hstyle : ∀ a, ¬c.Styles v arguments a) (hunlisted : ¬c.Unlisted v arguments) :
    c.Becomes v arguments (.fragment f none) where
  resolve := h
  style a ha := absurd ha (hstyle a)
  fragment _ := ⟨rfl, rfl⟩
  notice := ⟨fun hsome => (by cases hsome), fun h => absurd h hunlisted⟩
  fallback n hn := by cases hn

/-- a fragment with the notice that it is made up -/
theorem Becomes.told {n : Notice} (h : c.resolve v arguments = .ok (.fragment n.fallback (some n)))
    (hstyle : ∀ a, ¬c.Styles v arguments a) (hunlisted : c.Unlisted v arguments) (hkey : n.key = c.key) :
    c.Becomes v arguments (.fragment n.fallback (some n)) where
  resolve := h
  style a ha := absurd ha (hstyle a)
  fragment _ := ⟨rfl, rfl⟩
  notice := ⟨fun _ => hunlisted, fun _ => rfl⟩
  fallback m hm := by cases hm; exact ⟨hkey, rfl⟩

/-- a candidate with a class goes to the fragments -/
theorem resolve_becomes_of_listed {className : Text} (hclass : v.classOf? c.key = some className)
    (h : c.resolve v arguments = .ok piece) : c.Becomes v arguments piece := by
  have hquiet : ∃ f, piece = .fragment f none := by
    unfold Candidate.resolve at h
    rw [hclass] at h
    cases hgate : c.gate with
    | always =>
      rw [hgate] at h
      cases h
      exact ⟨_, rfl⟩
    | argument index =>
      simp only [hgate, gateArgument] at h
      cases ha : arguments[index]? <;> rw [ha] at h <;> cases h
      exact ⟨_, rfl⟩
  obtain ⟨f, rfl⟩ := hquiet
  refine .quiet h ?_ ?_
  · rintro a ⟨hnone, _⟩
    cases hclass.symm.trans hnone
  · rintro ⟨hnone, _⟩
    cases hclass.symm.trans hnone

/-- a candidate that nothing gates goes to the fragments, its own key as the class -/
theorem resolve_becomes_of_always (hclass : v.classOf? c.key = none) (hgate : c.gate = .always)
    (h : c.resolve v arguments = .ok piece) : c.Becomes v arguments piece := by
  have hstyle (a : Argument) : ¬c.Styles v arguments a := fun ha => not_gatedBy_of_always hgate a ha.2.1
  have hresolve := h
  unfold Candidate.resolve at h
  simp only [hclass, hgate] at h
  split at h
  · rename_i himplicit
    cases h
    rw [Bool.and_eq_true, decide_eq_true_iff, Bool.not_eq_true'] at himplicit
    refine .quiet hresolve hstyle ?_
    rintro ⟨_, ⟨_, hother⟩ | ⟨a, ha, _⟩⟩
    · exact hother himplicit
    · exact not_gatedBy_of_always hgate a ha
  · rename_i hother
    cases h
    rw [Bool.and_eq_true, decide_eq_true_iff, Bool.not_eq_true'] at hother
    exact .told (n := .noClass c.key _) hresolve hstyle ⟨hclass, .inl ⟨hgate, hother⟩⟩ rfl

/-- a candidate without a class goes to the styles under a variable, and to the fragments under a constant -/
theorem resolve_becomes_of_gated {a : Argument} (hclass : v.classOf? c.key = none) (ha : c.GatedBy arguments a)
    (h : c.resolve v arguments = .ok piece) : c.Becomes v arguments piece := by
  have hresolve := h
  have hnotAlways : c.gate ≠ .always := fun hgate => not_gatedBy_of_always hgate a ha
  have harbitrary : c.arbitraryValue v a = .ok piece := by
    obtain ⟨index, hgate, hat⟩ := ha
    unfold Candidate.resolve at h
    simp only [hclass, hgate, gateArgument_eq hat] at h
    exact h
  unfold arbitraryValue at harbitrary
  cases hkind : a.kind with
  | «variable» =>
    simp only [hkind] at harbitrary
    split at harbitrary <;> cases harbitrary
    refine ⟨hresolve, ?_, fun hstyle => absurd ⟨hclass, ha, hkind⟩ (hstyle a), ?_, fun n hn => by cases hn⟩
    · rintro b ⟨_, hb, _⟩
      rw [hb.unique ha]
      exact ⟨rfl, rfl⟩
    · refine ⟨fun hsome => (by cases hsome), ?_⟩
      rintro ⟨_, ⟨hgate, _⟩ | ⟨b, hb, hconstant, _⟩⟩
      · exact absurd hgate hnotAlways
      · rw [hb.unique ha, hkind] at hconstant
        cases hconstant
  | constant =>
    have hstyle (b : Argument) : ¬c.Styles v arguments b := by
      rintro ⟨_, hb, hvariable⟩
      rw [hb.unique ha, hkind] at hvariable
      cases hvariable
    simp only [hkind] at harbitrary
    cases hstem : v.prefixOf? c.key with
    | some stem =>
      simp only [hstem] at harbitrary
      cases harbitrary
      refine .quiet hresolve hstyle ?_
      rintro ⟨_, ⟨hgate, _⟩ | ⟨_, _, _, hnone⟩⟩
      · exact hnotAlways hgate
      · cases hstem.symm.trans hnone
    | none =>
      simp only [hstem] at harbitrary
      cases harbitrary
      exact .told (n := .noPrefix c.key _) hresolve hstyle ⟨hclass, .inr ⟨a, ha, hkind, hstem⟩⟩ rfl

theorem resolve_becomes (h : c.resolve v arguments = .ok piece) : c.Becomes v arguments piece := by
  cases hclass : v.classOf? c.key with
  | some className => exact resolve_becomes_of_listed hclass h
  | none =>
    cases hgate : c.gate with
    | always => exact resolve_becomes_of_always hclass hgate h
    | argument index =>
      cases ha : arguments[index]? with
      | some a => exact resolve_becomes_of_gated hclass ⟨index, hgate, ha⟩ h
      | none =>
        simp only [Candidate.resolve, hclass, hgate, gateArgument, ha] at h
        cases h

end Candidate

/-! ## Rows of candidates -/

/-- a row of candidates gives the piece of each, in order -/
theorem resolveAll_ok_iff {cs : List Candidate} {pieces : List Piece} :
    resolveAll v arguments cs = (pieces, none) ↔ List.Forall₂ (Candidate.Becomes v arguments) cs pieces := by
  constructor
  · intro h
    induction cs generalizing pieces with
    | nil =>
      cases h
      exact .nil
    | cons c cs ih =>
      obtain ⟨piece, more, hpiece, hrest, rfl⟩ := resolveAll_cons_ok h
      exact .cons (Candidate.resolve_becomes hpiece) (ih hrest)
  · intro h
    induction h with
    | nil => rfl
    | cons hpiece _ ih => rw [resolveAll, hpiece.resolve, ih]

/-- what a successful resolution outputs: the pieces of its candidates, sorted -/
structure Resolution (v : Vocabulary) (arguments : List Argument) (o : Outcome) (icons : List Text) (pieces : List Piece)
    (compiled : Compiled) : Prop where
  result : (resolve v arguments o icons).result = .ok compiled
  each : List.Forall₂ (Candidate.Becomes v arguments) o.candidates pieces
  /-- the fragments with a space between each two, and the icons behind them -/
  template : compiled.classTemplate =
    '\x60' :: [' '].intercalate (pieces.filterMap (·.fragment?)) ++ icons.flatMap iconSuffix ++ ['\x60']
  noStyle : compiled.styleObject = none ↔ o.declarations = [] ∧ pieces.filterMap (·.declaration?) = []
  /-- the styles of the chain, and the properties behind them -/
  style : ∀ t, compiled.styleObject = some t →
    t = '{' :: ", ".toList.intercalate
      ((o.declarations ++ pieces.filterMap (·.declaration?)).map (·.written)) ++ ['}']
  notices : compiled.notices = pieces.filterMap (·.notice?)

theorem styleObject?_eq_none_iff {ds : List Declaration} : styleObject? ds = none ↔ ds = [] := by
  rw [styleObject?]
  split <;> simp_all

/-- candidates that each become something are resolved -/
theorem exists_resolution {o : Outcome} {pieces : List Piece}
    (h : List.Forall₂ (Candidate.Becomes v arguments) o.candidates pieces) (icons : List Text) :
    ∃ compiled, Resolution v arguments o icons pieces compiled := by
  have hall := resolveAll_ok_iff.2 h
  refine ⟨⟨classTemplate (pieces.filterMap (·.fragment?)) icons,
    styleObject? (o.declarations ++ pieces.filterMap (·.declaration?)), pieces.filterMap (·.notice?)⟩, ?_⟩
  refine { result := ?_, each := h, template := rfl, noStyle := ?_, style := ?_, notices := rfl }
  · rw [resolve, hall]
  · rw [styleObject?_eq_none_iff, List.append_eq_nil_iff]
  · intro t ht
    rw [styleObject?] at ht
    split at ht <;> cases ht
    rfl

theorem resolution_of_ok {o : Outcome} {icons : List Text} {compiled : Compiled}
    (h : (resolve v arguments o icons).result = .ok compiled) :
    ∃ pieces, Resolution v arguments o icons pieces compiled := by
  obtain ⟨pieces, hall, _⟩ := resolve_ok h
  obtain ⟨compiled', hresolution⟩ := exists_resolution (resolveAll_ok_iff.1 hall) icons
  cases h.symm.trans hresolution.result
  exact ⟨pieces, hresolution⟩

/-- **Nothing is lost, doubled or reordered.** On success each candidate becomes one fragment or one property, and the
fragments, properties and notices are those of the candidates in order. So the parts of a row of candidates resolve, to
the parts of its pieces, and another outcome that resolves can be put behind: its pieces come behind. -/
theorem resolve_partition {o : Outcome} {icons : List Text} {compiled : Compiled}
    (h : (resolve v arguments o icons).result = .ok compiled) :
    ∃ pieces, Resolution v arguments o icons pieces compiled ∧
      (∀ front back, o.candidates = front ++ back → ∃ ps qs, pieces = ps ++ qs ∧ ∀ ds icons',
        (∃ compiled', Resolution v arguments ⟨front, ds⟩ icons' ps compiled') ∧
          ∃ compiled', Resolution v arguments ⟨back, ds⟩ icons' qs compiled') ∧
      ∀ o' icons' compiled', (resolve v arguments o' icons').result = .ok compiled' →
        ∃ more, Resolution v arguments o' icons' more compiled' ∧ ∀ ds icons'', ∃ compiled'',
          Resolution v arguments ⟨o.candidates ++ o'.candidates, ds⟩ icons'' (pieces ++ more) compiled'' := by
  obtain ⟨pieces, hresolution⟩ := resolution_of_ok h
  refine ⟨pieces, hresolution, ?_, ?_⟩
  · intro front back hsplit
    have heach := hresolution.each
    rw [hsplit] at heach
    have hfront := List.forall₂_take front.length heach
    have hback := List.forall₂_drop front.length heach
    rw [List.take_left] at hfront
    rw [List.drop_left] at hback
    exact ⟨_, _, (List.take_append_drop front.length pieces).symm,
      fun ds icons' => ⟨exists_resolution hfront icons', exists_resolution hback icons'⟩⟩
  · intro o' icons' compiled' h'
    obtain ⟨more, hmore⟩ := resolution_of_ok h'
    exact ⟨more, hmore, fun ds icons'' => exists_resolution (List.rel_append hresolution.each hmore.each) icons''⟩

/-- one class and one property prefix -/
def sortedVocabulary : Vocabulary :=
  ⟨.ofList [("bold".toList, "font-bold".toList)], .ofList [("width".toList, "w".toList)]⟩

/-- candidates without an argument, and with a class -/
def plainCandidates : List Candidate :=
  [⟨implicitKey, false, .always⟩, ⟨"bold".toList, false, .argument 0⟩, ⟨"foo".toList, true, .always⟩]

/-- candidates without a class, under a variable and under constants -/
def valuedCandidates : List Candidate :=
  [⟨"color".toList, false, .argument 0⟩, ⟨"width".toList, true, .argument 1⟩, ⟨"bar".toList, false, .argument 1⟩]

/-- a variable and a constant -/
def sortedArguments : List Argument := [.classify "on".toList, .classify "'3px'".toList]

/-- six candidates of which one is a property and two have notices, resolved whole and as two parts -/
theorem resolve_partition_mixed :
    ∃ pieces compiled, Resolution sortedVocabulary sortedArguments
        ⟨plainCandidates ++ valuedCandidates, [.spread "s".toList]⟩ ["i".toList] pieces compiled ∧
      compiled.classTemplate =
        "\x60flex $\x7b(on)?('font-bold'):''\x7d sm:foo sm:w-[3px] bar-[3px] $\x7bi\x7d\x60".toList ∧
      compiled.styleObject = some "\x7b...(s), 'color': on\x7d".toList ∧
      compiled.notices.map (·.fallback) = ["sm:foo".toList, "bar-[3px]".toList] ∧
      ∃ ps qs, pieces = ps ++ qs ∧
        (∃ compiled', Resolution sortedVocabulary sortedArguments ⟨plainCandidates, []⟩ [] ps compiled') ∧
        ∃ compiled', Resolution sortedVocabulary sortedArguments ⟨valuedCandidates, []⟩ [] qs compiled' := by
  have hok : (resolve sortedVocabulary sortedArguments ⟨plainCandidates ++ valuedCandidates, [.spread "s".toList]⟩
      ["i".toList]).result = .ok _ := rfl
  obtain ⟨pieces, hresolution, hparts, _⟩ := resolve_partition hok
  obtain ⟨ps, qs, hsplit, hboth⟩ := hparts plainCandidates valuedCandidates rfl
  exact ⟨pieces, _, hresolution, by decide, by decide, by decide, ps, qs, hsplit, hboth [] []⟩

end TerseStyle.Chain

/-
Rejected candidates. A candidate is rejected for one of two reasons, which are told by its key, its mode, its gate and the
vocabulary: its gate refers to no argument, or it is responsive and would become a style. All others become something. So
the first rejected candidate decides how the resolution of a chain fails, and without one it succeeds.

Results:
- `Candidate.resolve_error_iff`: a candidate fails as it is rejected, and in no other way.
- `resolveAll_error_iff`: a row of candidates fails as the first rejected one does.
- `resolve_rejects`: when resolution fails, with which error, and what has no part in it.
-/
import TerseStyle.Proofs.Chain.Partition

namespace TerseStyle.Chain

variable {v : Vocabulary} {arguments : List Argument} {c : Candidate} {e : CompileError}

/-! ## One candidate -/

namespace Candidate

/-- why a candidate cannot become anything -/
inductive Rejected (v : Vocabulary) (arguments : List Argument) (c : Candidate) : CompileError → Prop
  /-- the index of its gate is outside the arguments -/
  | dangling {index : Nat} (hgate : c.gate = .argument index) (houtside : arguments.length ≤ index) :
      Rejected v arguments c (.danglingGate c.key index)
  /-- it would become a style, and is responsive -/
  | styled {a : Argument} (hresponsive : c.responsive = true) (hstyle : c.Styles v arguments a) :
      Rejected v arguments c (.responsiveVariable c.key)

/-- nothing but a gate can have a candidate rejected -/
theorem not_rejected_of_always (hgate : c.gate = .always) : ¬c.Rejected v arguments e := by
  intro h
  cases h with
  | dangling hindex => cases hgate.symm.trans hindex
  | styled _ hstyle => exact not_gatedBy_of_always hgate _ hstyle.2.1

theorem rejected_outside_iff {index : Nat} (hgate : c.gate = .argument index) (houtside : arguments.length ≤ index) :
    c.Rejected v arguments e ↔ e = .danglingGate c.key index := by
  constructor
  · intro h
    cases h with
    | dangling hgate' =>
      cases hgate.symm.trans hgate'
      rfl
    | styled _ hstyle =>
      obtain ⟨_, ⟨index', hgate', hat⟩, _⟩ := hstyle
      cases hgate.symm.trans hgate'
      rw [List.getElem?_eq_none houtside] at hat
      cases hat
  · rintro rfl
    exact .dangling hgate houtside

theorem rejected_gated_iff {a : Argument} (ha : c.GatedBy arguments a) :
    c.Rejected v arguments e ↔
      v.classOf? c.key = none ∧ a.kind = .variable ∧ c.responsive = true ∧ e = .responsiveVariable c.key := by
  constructor
  · intro h
    cases h with
    | dangling hgate houtside =>
      obtain ⟨index, hgate', hat⟩ := ha
      cases hgate.symm.trans hgate'
      rw [List.getElem?_eq_none houtside] at hat
      cases hat
    | styled hresponsive hstyle =>
      obtain ⟨hclass, hgated, hkind⟩ := hstyle
      rw [hgated.unique ha] at hkind
      exact ⟨hclass, hkind, hresponsive, rfl⟩
  · rintro ⟨hclass, hkind, hresponsive, rfl⟩
    exact .styled hresponsive ⟨hclass, ha, hkind⟩

/-- a candidate fails as it is rejected -/
theorem resolve_error_iff : c.resolve v arguments = .error e ↔ c.Rejected v arguments e := by
  unfold Candidate.resolve
  cases hgate : c.gate with
  | always =>
    rw [iff_false_right (not_rejected_of_always hgate)]
    cases v.classOf? c.key with
    | some className => simp
    | none =>
      dsimp only
      split <;> simp
  | argument index =>
    by_cases houtside : arguments.length ≤ index
    · have hnone : c.gateArgument arguments index = .error (.danglingGate c.key index) := by
        rw [gateArgument, List.getElem?_eq_none houtside]
      rw [rejected_outside_iff hgate houtside]
      cases v.classOf? c.key <;> simp only [hnone] <;>
      · constructor
        · rintro ⟨⟩
          rfl
        · rintro rfl
          rfl
    · have hat : arguments[index]? = some arguments[index] := List.getElem?_eq_getElem (by omega)
      rw [rejected_gated_iff ⟨index, hgate, hat⟩]
      cases v.classOf? c.key with
      | some className =>
        simp only [gateArgument_eq hat]
        constructor
        · rintro ⟨⟩
        · rintro ⟨⟨⟩, _⟩
      | none =>
        simp only [gateArgument_eq hat, true_and]
        exact arbitraryValue_error_iff

end Candidate

/-! ## Rows of candidates -/

/-- the first rejected candidate of a row, and what it is rejected with -/
def FirstRejected (v : Vocabulary) (arguments : List Argument) (cs : List Candidate) (e : CompileError) : Prop :=
  ∃ front c back, cs = front ++ c :: back ∧ (∀ d ∈ front, ∀ e', ¬d.Rejected v arguments e') ∧ c.Rejected v arguments e

theorem firstRejected_cons_iff {cs : List Candidate} :
    FirstRejected v arguments (c :: cs) e ↔
      c.Rejected v arguments e ∨ (∀ e', ¬c.Rejected v arguments e') ∧ FirstRejected v arguments cs e := by
  constructor
  · rintro ⟨front, d, back, heq, hfront, hd⟩
    cases front with
    | nil =>
      cases heq
      exact .inl hd
    | cons d' front =>
      cases heq
      rw [List.forall_mem_cons] at hfront
      exact .inr ⟨hfront.1, front, d, back, rfl, hfront.2, hd⟩
  · rintro (hc | ⟨hc, front, d, back, rfl, hfront, hd⟩)
    · exact ⟨[], c, cs, rfl, by simp, hc⟩
    · exact ⟨c :: front, d, back, rfl, List.forall_mem_cons.2 ⟨hc, hfront⟩, hd⟩

/-- a row of candidates fails as the first rejected one does -/
theorem resolveAll_error_iff {cs : List Candidate} :
    (resolveAll v arguments cs).2 = some e ↔ FirstRejected v arguments cs e := by
  induction cs with
  | nil =>
    constructor
    · rintro ⟨⟩
    · rintro ⟨front, c, back, heq, _⟩
      simp at heq
  | cons c cs ih =>
    rw [firstRejected_cons_iff, ← ih, resolveAll]
    cases hc : c.resolve v arguments with
    | error e' =>
      -- the rest of the row is not looked at
      have hrejected := Candidate.resolve_error_iff.1 hc
      rw [← Candidate.resolve_error_iff, hc]
      constructor
      · rintro ⟨⟩
        exact .inl rfl
      · rintro (⟨⟨⟩⟩ | ⟨hnone, _⟩)
        · rfl
        · exact absurd hrejected (hnone e')
    | ok piece =>
      have hnone (e' : CompileError) : ¬c.Rejected v arguments e' := by
        rw [← Candidate.resolve_error_iff, hc]
        rintro ⟨⟩
      constructor
      · exact fun h => .inr ⟨hnone, h⟩
      · rintro (h | ⟨_, h⟩)
        · exact absurd h (hnone e)
        · exact h

theorem exists_firstRejected_iff {cs : List Candidate} :
    (∃ e, FirstRejected v arguments cs e) ↔ ∃ c ∈ cs, ∃ e, c.Rejected v arguments e := by
  induction cs with
  | nil => simp [FirstRejected]
  | cons c cs ih =>
    simp only [firstRejected_cons_iff, List.exists_mem_cons_iff, exists_or, exists_and_left, ih]
    by_cases hc : ∃ e, c.Rejected v arguments e
    · simp [hc]
    · simp only [hc, false_or, and_iff_right_iff_imp]
      exact fun _ e he => hc ⟨e, he⟩

/-! ## Resolution -/

theorem resolve_error_iff_first {o : Outcome} {icons : List Text} :
    (resolve v arguments o icons).result = .error e ↔ FirstRejected v arguments o.candidates e := by
  rw [← resolveAll_error_iff, resolve]
  rcases resolveAll v arguments o.candidates with ⟨pieces, _ | e'⟩ <;> simp

/-- **When resolution fails.** It fails exactly if a candidate is rejected: its gate is outside the arguments, or it is
responsive, without a class, and gated by a variable. The error is that of the first rejected candidate, with its key,
and with the index of its gate if that is the reason; what stands behind this candidate, the styles and the icons have no
part in it. -/
theorem resolve_rejects (v : Vocabulary) (arguments : List Argument) (o : Outcome) (icons : List Text) :
    ((∃ e, (resolve v arguments o icons).result = .error e) ↔ ∃ c ∈ o.candidates, ∃ e, c.Rejected v arguments e) ∧
      (∀ e, (resolve v arguments o icons).result = .error e ↔
        ∃ front c back, o.candidates = front ++ c :: back ∧ (∀ d ∈ front, ∀ e', ¬d.Rejected v arguments e') ∧
          c.Rejected v arguments e) ∧
      ∀ front c back e, o.candidates = front ++ c :: back → (∀ d ∈ front, ∀ e', ¬d.Rejected v arguments e') →
        c.Rejected v arguments e → ∀ back' ds icons',
          (resolve v arguments ⟨front ++ c :: back', ds⟩ icons').result = (resolve v arguments o icons).result := by
  refine ⟨?_, fun e => resolve_error_iff_first, ?_⟩
  · simp only [resolve_error_iff_first]
    exact exists_firstRejected_iff
  · intro front c back e heq hfront hc back' ds icons'
    have hfirst : (resolve v arguments o icons).result = .error e :=
      resolve_error_iff_first.2 ⟨front, c, back, heq, hfront, hc⟩
    rw [hfirst, resolve_error_iff_first]
    exact ⟨front, c, back', rfl, hfront, hc⟩

/-- a responsive class under a variable, and a responsive value under a constant -/
def acceptedCandidates : List Candidate := [⟨"bold".toList, true, .argument 0⟩, ⟨"width".toList, true, .argument 1⟩]

/-- a responsive style -/
def responsiveStyle : Candidate := ⟨"color".toList, true, .argument 0⟩

/-- a class with a gate outside of two arguments -/
def danglingClass : Candidate := ⟨"bold".toList, false, .argument 2⟩

/-- of two rejected candidates the one in front decides, behind responsive ones that are not rejected -/
theorem resolve_rejects_first :
    (resolve sortedVocabulary sortedArguments ⟨acceptedCandidates ++ [responsiveStyle, danglingClass], []⟩ []).result =
        .error (.responsiveVariable "color".toList) ∧
      (resolve sortedVocabulary sortedArguments ⟨acceptedCandidates ++ [danglingClass, responsiveStyle], []⟩ []).result =
        .error (.danglingGate "bold".toList 2) := by
  have haccepted : ∀ d ∈ acceptedCandidates, ∀ e, ¬d.Rejected sortedVocabulary sortedArguments e := by
    intro d hd e
    rw [← Candidate.resolve_error_iff]
    simp only [acceptedCandidates, List.mem_cons, List.not_mem_nil, or_false] at hd
    rcases hd with rfl | rfl <;> rintro ⟨⟩
  have hstyle : responsiveStyle.Rejected sortedVocabulary sortedArguments (.responsiveVariable "color".toList) :=
    .styled rfl ⟨by decide, ⟨0, rfl, rfl⟩, rfl⟩
  have hdangling : danglingClass.Rejected sortedVocabulary sortedArguments (.danglingGate "bold".toList 2) :=
    .dangling rfl (by decide)
  constructor
  · exact ((resolve_rejects _ _ _ _).2.1 _).2 ⟨_, _, _, rfl, haccepted, hstyle⟩
  · exact ((resolve_rejects _ _ _ _).2.1 _).2 ⟨_, _, _, rfl, haccepted, hdangling⟩

end TerseStyle.Chain

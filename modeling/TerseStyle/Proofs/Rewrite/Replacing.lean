/-
Chain attributes replace elements. The attribute that holds a chain, and the class that is merged with it, are taken out
with all elements in them; what comes instead is read from generated code, in which their texts may stand again as they
were written.

Results:
- `generatedCode`, `generated`: the code that a chain is replaced by, and the expressions read from it.
- `rewriteChain_cases`: the elements in the attributes afterwards are those in the ones kept and those in what was read.
-/
import TerseStyle.Proofs.Rewrite.Moving
import TerseStyle.Proofs.Rewrite.Rewriting

namespace TerseStyle.Rewrite

open Script

variable {settings : Settings} {language : Language}

/-! ## What goes and what comes -/

/-- the attributes that are kept when the chain among them is replaced, or what they were computed to; all, if there is
no chain -/
def keptBy {α : Type} (settings : Settings) (source : α → Attribute) (l : List α) : List α :=
  if l.any fun x => isChain settings (source x) then
    (l.eraseP fun x => isChain settings (source x)).eraseP fun x => isNamed className (source x)
  else l

/-- the code that the chain among attributes is replaced by: its classes, merged with those that were there before, and
its styles, if it has any -/
def generatedCode (settings : Settings) (as : List Attribute) : List Text :=
  match (as.find? (isChain settings)).bind fun a => expressionSource? a.value with
  | none => []
  | some source =>
    match (Chain.compile settings source).result with
    | .error _ => []
    | .ok compiled =>
      let merged := (as.eraseP (isChain settings)).find? (isNamed className)
      classCode settings.mergeFunction (merged.bind fun a => writtenSource? a.value) compiled.classTemplate ::
        compiled.styleObject.toList

/-- the expressions read from the code that the chain among attributes is replaced by -/
def generated (settings : Settings) (language : Language) (as : List Attribute) : List Node :=
  (generatedCode settings as).filterMap fun code => (readGenerated language code).toOption

theorem takeChain_eq (as : List Attribute) : takeChain settings as = as.eraseP (isChain settings) := by
  induction as with
  | nil => rfl
  | cons a rest ih =>
    rw [takeChain, List.eraseP_cons, ih]
    cases isChain settings a <;> rfl

theorem takeFirst_eq (name : Text) (as : List Attribute) :
    takeFirst name as = (as.find? (isNamed name), as.eraseP (isNamed name)) := by
  induction as with
  | nil => rfl
  | cons a rest ih =>
    rw [takeFirst, List.eraseP_cons, List.find?_cons, ih]
    cases isNamed name a <;> rfl

theorem filter_eraseP {α : Type} (p : α → Bool) (l : List α) : (l.eraseP p).filter p = (l.filter p).tail := by
  induction l with
  | nil => rfl
  | cons x l ih =>
    rw [List.eraseP_cons]
    cases hx : p x with
    | true => rw [cond_true, List.filter_cons_of_pos hx, List.tail_cons]
    | false =>
      have hx : ¬ p x = true := by simp [hx]
      rw [cond_false, List.filter_cons_of_neg hx, List.filter_cons_of_neg hx, ih]

theorem find?_eraseP_of_disjoint {p q : Attribute → Bool} {as : List Attribute} (h : ∀ a ∈ as, q a = true → p a = false) :
    (as.eraseP q).find? p = as.find? p := by
  induction as with
  | nil => rfl
  | cons a rest ih =>
    have hrest := ih fun b hb => h b (List.mem_cons_of_mem a hb)
    rw [List.eraseP_cons, List.find?_cons]
    cases hq : q a with
    | true => rw [h a List.mem_cons_self hq]; rfl
    | false => rw [cond_false, List.find?_cons, hrest]

theorem find?_of_filter {p : Attribute → Bool} {as : List Attribute} {a : Attribute} (h : as.filter p = [a]) :
    as.find? p = some a := by
  rw [← List.head?_filter, h]
  rfl

/-! ## The steps -/

variable {before after : Trace}

theorem compileAttribute_ends {a : Attribute} {compiled : Chain.Compiled}
    (h : Ends (compileAttribute settings a) before compiled after) :
    ∃ source, expressionSource? a.value = some source ∧ (Chain.compile settings source).result = .ok compiled ∧
      after.rewritten = before.rewritten := by
  unfold compileAttribute at h
  cases hsource : expressionSource? a.value with
  | none =>
    rw [hsource] at h
    exact absurd h not_ends_throw
  | some source =>
    rw [hsource] at h
    obtain ⟨_, mid, hnote, h⟩ := ends_bind.1 h
    obtain rfl := ends_modify.1 hnote
    cases hresult : (Chain.compile settings source).result with
    | error e =>
      simp only [hresult] at h
      exact absurd h not_ends_throw
    | ok compiled' =>
      simp only [hresult] at h
      obtain ⟨rfl, rfl⟩ := ends_pure.1 h
      exact ⟨source, rfl, hresult, rfl⟩

/-- attributes without the class that is merged, and behind them a class and perhaps a style that were read -/
theorem mergeCompiled_ok {compiled : Chain.Compiled} {others result : List Attribute}
    (h : mergeCompiled settings language compiled others = .ok result) :
    ∃ classes styles, result = others.eraseP (isNamed className) ++ expressionAttribute className classes :: styles ∧
      readGenerated language (classCode settings.mergeFunction
        ((others.find? (isNamed className)).bind fun a => writtenSource? a.value) compiled.classTemplate) = .ok classes ∧
      ((compiled.styleObject = none ∧ styles = []) ∨ ∃ code e, compiled.styleObject = some code ∧
        readGenerated language code = .ok e ∧ styles = [expressionAttribute styleName e]) := by
  unfold mergeCompiled at h
  rw [takeFirst_eq] at h
  simp only at h
  generalize classCode settings.mergeFunction
    ((others.find? (isNamed className)).bind fun a => writtenSource? a.value) compiled.classTemplate = code at h ⊢
  rcases hclasses : readGenerated language code with e | classes
  · rw [hclasses] at h
    cases h
  · rw [hclasses] at h
    cases hstyle : compiled.styleObject with
    | none =>
      rw [hstyle] at h
      cases h
      exact ⟨classes, [], rfl, rfl, Or.inl ⟨rfl, rfl⟩⟩
    | some styleCode =>
      rw [hstyle] at h
      rcases hstyles : readGenerated language styleCode with e | style
      · simp only [hstyles] at h
        cases h
      · simp only [hstyles] at h
        cases h
        exact ⟨classes, _, rfl, rfl, Or.inr ⟨styleCode, style, rfl, hstyles, rfl⟩⟩

theorem mergeCompiled_cases {compiled : Chain.Compiled} {others result : List Attribute}
    (h : mergeCompiled settings language compiled others = .ok result) :
    ∃ news, result = others.eraseP (isNamed className) ++ news ∧
      (∀ a ∈ news, isNamed className a = true ∨ isNamed styleName a = true) ∧
      Attribute.openingsAll news = Node.openingsAll ((classCode settings.mergeFunction
        ((others.find? (isNamed className)).bind fun a => writtenSource? a.value) compiled.classTemplate ::
          compiled.styleObject.toList).filterMap fun code => (readGenerated language code).toOption) := by
  obtain ⟨classes, styles, rfl, hclasses, ⟨hstyle, rfl⟩ | ⟨code, style, hstyle, hread, rfl⟩⟩ := mergeCompiled_ok h
  · refine ⟨_, rfl, by simp [isNamed, expressionAttribute, Attribute.name?], ?_⟩
    simp [hclasses, hstyle, Except.toOption, Attribute.openingsAll, Node.openingsAll, openings_expressionAttribute]
  · refine ⟨_, rfl, by simp [isNamed, expressionAttribute, Attribute.name?], ?_⟩
    simp [hclasses, hstyle, hread, Except.toOption, Attribute.openingsAll, Node.openingsAll,
      openings_expressionAttribute]

/-- attributes are left alone if none holds a chain; else one does, there is no style, and its chain was compiled -/
theorem rewriteChain_ends {element : Text} {as : List Attribute} {result : Option (List Attribute)}
    (h : Ends (rewriteChain settings language element as) before result after) :
    (result = none ∧ after = before ∧ as.filter (isChain settings) = []) ∨
      ∃ a source compiled merged, result = some merged ∧ as.filter (isChain settings) = [a] ∧
        as.any (isNamed styleName) = false ∧ expressionSource? a.value = some source ∧
        (Chain.compile settings source).result = .ok compiled ∧
        mergeCompiled settings language compiled (as.eraseP (isChain settings)) = .ok merged ∧
        after.rewritten = before.rewritten := by
  unfold rewriteChain at h
  split at h
  · rename_i hnone
    obtain ⟨rfl, rfl⟩ := ends_pure.1 h
    exact Or.inl ⟨rfl, rfl, hnone⟩
  · rename_i a hone
    split at h
    · obtain ⟨_, _, hthrow, _⟩ := ends_bind.1 h
      exact absurd hthrow not_ends_throw
    · rename_i hstyle
      obtain ⟨compiled, mid, hcompile, h⟩ := ends_bind.1 h
      obtain ⟨source, hsource, hresult, hcount⟩ := compileAttribute_ends hcompile
      obtain ⟨merged, hlift, rfl⟩ := ends_bind_pure.1 h
      obtain ⟨hmerge, rfl⟩ := ends_lift.1 hlift
      rw [takeChain_eq] at hmerge
      exact Or.inr ⟨a, source, compiled, merged, rfl, hone, by simpa using hstyle, hsource, hresult, hmerge, hcount⟩
  · exact absurd h not_ends_throw

/-- **A chain replaces elements.** Attributes without a chain are left alone. Others lose the one that holds the chain
and the class merged with it, and get a class and perhaps a style that hold the elements of the expressions read. -/
theorem rewriteChain_cases {element : Text} {as : List Attribute} {result : Option (List Attribute)}
    (h : Ends (rewriteChain settings language element as) before result after) :
    (result = none ∧ after = before ∧ ∀ a ∈ as, isChain settings a = false) ∨
      ∃ news, result = some (keptBy settings id as ++ news) ∧ after.rewritten = before.rewritten ∧
        (∃ a ∈ as, isChain settings a = true) ∧ (∀ a ∈ keptBy settings id as, isChain settings a = false) ∧
        (∀ a ∈ news, isNamed className a = true ∨ isNamed styleName a = true) ∧
        Attribute.openingsAll news = Node.openingsAll (generated settings language as) := by
  rcases rewriteChain_ends h with ⟨rfl, rfl, hnone⟩ |
    ⟨a, source, compiled, merged, rfl, hone, _, hsource, hresult, hmerge, hcount⟩
  · refine Or.inl ⟨rfl, rfl, ?_⟩
    simpa [List.filter_eq_nil_iff] using hnone
  · obtain ⟨news, rfl, hnames, hopenings⟩ := mergeCompiled_cases hmerge
    have hmem : a ∈ as.filter (isChain settings) := by rw [hone]; exact List.mem_singleton_self a
    have hchain := List.mem_filter.1 hmem
    have hfound : as.find? (isChain settings) = some a := find?_of_filter hone
    have hkept : keptBy settings id as = (as.eraseP (isChain settings)).eraseP (isNamed className) :=
      if_pos (List.any_eq_true.2 ⟨a, hchain⟩)
    have hothers : (as.eraseP (isChain settings)).filter (isChain settings) = [] := by rw [filter_eraseP, hone]; rfl
    refine Or.inr ⟨news, by rw [hkept], hcount, ⟨a, hchain⟩, ?_, hnames, ?_⟩
    · rw [hkept]
      intro b hb
      simpa using List.filter_eq_nil_iff.1 hothers b (List.mem_of_mem_eraseP hb)
    · rw [hopenings, generated, generatedCode, hfound]
      simp only [Option.bind_some, hsource, hresult]

end TerseStyle.Rewrite

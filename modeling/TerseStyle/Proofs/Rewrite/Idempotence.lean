/-
Rewriting twice. A script is rewritten to itself exactly when its elements are settled, so a second rewrite changes
nothing exactly when the first has left only settled elements. Markers always do. Chains do not: the expressions read for
them take over what was written in the chain and in the class merged with it, and what was shorthand there is shorthand
again.

Of the language only this is used: what a rewrite prints is read back with the same elements and attributes, in order.

Results:
- `rewriteIn_self_iff`: a script is rewritten to itself exactly when its elements are settled.
- `rewriteIn_settled_iff`: a rewritten script has settled elements exactly when the residue of the one before has.
- `rewriteIn_idempotent_iff`: both together, for all vocabularies.
-/
import TerseStyle.Proofs.Rewrite.Residue
import TerseStyle.Rewrite.Standard

namespace TerseStyle.Rewrite

open Script

variable {settings : Settings} {language : Language}

/-- what a script is rewritten to is printed so that it is read back with the same elements, by name, and with the same
attributes, by name -/
def ReadsBack (settings : Settings) (language : Language) (source : Text) : Prop :=
  ∀ tree, language.script source = .ok tree → ∀ t trace, rewriteTree settings language tree = (.ok t, trace) →
    ∃ t', language.script (language.print t) = .ok t' ∧ t'.openings.map shape = t.openings.map shape

/-- computes `ReadsBack` -/
def readsBack (settings : Settings) (language : Language) (source : Text) : Bool :=
  match language.script source with
  | .error _ => true
  | .ok tree =>
    match (rewriteTree settings language tree).1 with
    | .error _ => true
    | .ok t =>
      match language.script (language.print t) with
      | .error _ => false
      | .ok t' => t'.openings.map shape = t.openings.map shape

theorem readsBack_iff {source : Text} :
    readsBack settings language source = true ↔ ReadsBack settings language source := by
  unfold readsBack ReadsBack
  cases language.script source with
  | error offset => simp
  | ok tree =>
    simp only [Except.ok.injEq, forall_eq']
    rcases rewriteTree settings language tree with ⟨e | t, trace⟩
    · simp
    · cases hback : language.script (language.print t) <;> simp [hback]

instance (settings : Settings) (language : Language) (source : Text) : Decidable (ReadsBack settings language source) :=
  decidable_of_iff _ readsBack_iff

/-- a script is rewritten when it is read and its tree is rewritten; it is printed if anything was counted -/
theorem rewriteIn_ok {file source output : Text} (h : (rewriteIn language settings file source).result = .ok output) :
    ∃ tree t trace, language.script source = .ok tree ∧ rewriteTree settings language tree = (.ok t, trace) ∧
      output = if trace.rewritten = 0 then source else language.print t := by
  unfold rewriteIn at h
  cases hsource : language.script source with
  | error offset =>
    rw [hsource] at h
    cases h
  | ok tree =>
    rw [hsource] at h
    rcases hrun : rewriteTree settings language tree with ⟨e | t, trace⟩
    · simp only [hrun] at h
      cases h
    · simp only [hrun] at h
      cases h
      exact ⟨tree, t, trace, rfl, hrun, rfl⟩

/-- a script of settled elements is rewritten to itself -/
theorem rewriteIn_settled {file source : Text} {tree : Node} (htree : language.script source = .ok tree)
    (hsettled : Settled settings tree.openings) : (rewriteIn language settings file source).result = .ok source := by
  have hrun : rewriteTree settings language tree = (.ok tree, {}) := rewriteNode_settled tree {} hsettled
  unfold rewriteIn
  rw [htree]
  simp only [hrun]
  rfl

/-- a script is rewritten to itself exactly when its elements are settled -/
theorem rewriteIn_self_iff (hapart : ChainsApart settings) {file output : Text} {tree : Node}
    (htree : language.script output = .ok tree) (hback : ReadsBack settings language output) :
    (rewriteIn language settings file output).result = .ok output ↔ Settled settings tree.openings := by
  constructor
  · intro h
    obtain ⟨tree', t, trace, htree', hrun, houtput⟩ := rewriteIn_ok h
    rw [htree] at htree'
    cases htree'
    rcases rewriteNode_cases hapart tree hrun with ⟨hsettled, _, _⟩ | ⟨hdiverges, hlt⟩
    · exact hsettled
    · -- what is printed is read back with another row of elements, so it is not what was read
      rw [if_neg (by omega)] at houtput
      obtain ⟨t', ht', hshape⟩ := hback tree htree t trace hrun
      rw [← houtput, htree] at ht'
      cases ht'
      exact absurd hshape hdiverges.shape_ne
  · exact rewriteIn_settled htree

/-- a rewritten script has settled elements exactly when the residue of the one before has -/
theorem rewriteIn_settled_iff (hapart : ChainsApart settings) {file source output : Text}
    (h : (rewriteIn language settings file source).result = .ok output) (hback : ReadsBack settings language source) :
    ∃ before after, language.script source = .ok before ∧ language.script output = .ok after ∧
      (Settled settings after.openings ↔ Settled settings (Node.openingsAll (residue settings language before))) := by
  obtain ⟨tree, t, trace, htree, hrun, rfl⟩ := rewriteIn_ok h
  have hsettles := rewriteNode_settles_iff hapart tree hrun
  rcases rewriteNode_cases hapart tree hrun with ⟨_, rfl, rfl⟩ | ⟨_, hlt⟩
  · exact ⟨t, t, htree, htree, hsettles⟩
  · rw [if_neg (by omega)]
    obtain ⟨t', ht', hshape⟩ := hback tree htree t trace hrun
    exact ⟨tree, t', htree, ht', (settled_congr hshape).trans hsettles⟩

/-- the standard settings with another vocabulary -/
def standardWith (vocabulary : Vocabulary) : Settings := { Settings.standard with vocabulary := vocabulary }

theorem chainsApart_standardWith (vocabulary : Vocabulary) : ChainsApart (standardWith vocabulary) := by
  have hclass : Settings.standard.isChainAttribute className = false := by decide
  have hstyle : Settings.standard.isChainAttribute styleName = false := by decide
  exact ⟨hclass, hstyle⟩

/-- **A rewrite is idempotent exactly up to its residue.** Under the standard settings with any vocabulary, a script
that was rewritten has no shorthand left on its elements, and is rewritten to itself, exactly when the expressions read
for the chains of the script before have none. -/
theorem rewriteIn_idempotent_iff (language : Language) (vocabulary : Vocabulary) {file source output : Text}
    (h : (rewriteIn language (standardWith vocabulary) file source).result = .ok output)
    (hsource : ReadsBack (standardWith vocabulary) language source)
    (houtput : ReadsBack (standardWith vocabulary) language output) :
    ∃ before after, language.script source = .ok before ∧ language.script output = .ok after ∧
      (Settled (standardWith vocabulary) after.openings ↔
        Settled (standardWith vocabulary) (Node.openingsAll (residue (standardWith vocabulary) language before))) ∧
      ((rewriteIn language (standardWith vocabulary) file output).result = .ok output ↔
        Settled (standardWith vocabulary) (Node.openingsAll (residue (standardWith vocabulary) language before))) := by
  have hapart := chainsApart_standardWith vocabulary
  obtain ⟨before, after, hbefore, hafter, hiff⟩ := rewriteIn_settled_iff hapart h hsource
  exact ⟨before, after, hbefore, hafter, hiff, (rewriteIn_self_iff hapart hafter houtput).trans hiff⟩

/-- a vocabulary with one class -/
def boldAlone : Vocabulary := ⟨.ofList [("bold".toList, [])], .empty⟩

/-- a script with an element in the argument of a chain -/
def nestedSource : Text := "const a = <div ss=\x7bSS.bold(<p $a/>)\x7d/>;".toList

/-- the same script rewritten -/
def nestedOutput : Text := "const a = <div class=\x7b\x60flex $\x7b<p $a/> ? 'bold' : ''\x7d\x60\x7d/>;\n".toList

/-- the element in the argument of a chain comes out as it was written, so a second rewrite does not leave it so -/
theorem rewriteIn_idempotent_iff_nested :
    (rewriteScript (standardWith boldAlone) "a.tsx".toList nestedSource).result = .ok nestedOutput ∧
      (∃ after, (Language.ofFile "a.tsx".toList).script nestedOutput = .ok after ∧
        ¬ Settled (standardWith boldAlone) after.openings) ∧
      (rewriteScript (standardWith boldAlone) "a.tsx".toList nestedOutput).result ≠ .ok nestedOutput := by
  let settings := standardWith boldAlone
  let language := Language.ofFile "a.tsx".toList
  have h : (rewriteIn language settings "a.tsx".toList nestedSource).result = .ok nestedOutput := by decide +kernel
  have hsource : ReadsBack settings language nestedSource := by decide +kernel
  have houtput : ReadsBack settings language nestedOutput := by decide +kernel
  obtain ⟨before, after, hbefore, hafter, hsettled, hself⟩ := rewriteIn_idempotent_iff language _ h hsource houtput
  have hresidue : (language.script nestedSource).toOption.all (fun tree =>
      !decide (Settled settings (Node.openingsAll (residue settings language tree)))) = true := by decide +kernel
  rw [hbefore] at hresidue
  have hleft : ¬ Settled settings (Node.openingsAll (residue settings language before)) := by
    simpa [Except.toOption] using hresidue
  exact ⟨h, ⟨after, hafter, fun hs => hleft (hsettled.1 hs)⟩, fun hs => hleft (hself.1 hs)⟩

end TerseStyle.Rewrite

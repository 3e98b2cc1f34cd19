/-
Constants as class names. A key without classes of its own, under a constant, becomes one class name with the words of
the constant between its brackets. Blanks only separate the words, so none is left of them; all other characters stand
in the class name that the template gives, whatever they mean to a script.

Results:
- `Shows.cooked_iff`: the text that a piece of a template gives by itself.
- `resolve_constant`: the class name that a key becomes under a constant.
-/
import TerseStyle.Proofs.Chain.Constants
import TerseStyle.Proofs.Chain.Responsive
import TerseStyle.Proofs.Script.Evaluation

namespace TerseStyle.Chain

open Script
open Text (Separated words)

variable {ws : List Text} {t : Text}

/-! ## Pieces of a template by themselves -/

/-- a piece that stands for text in front of every template gives that text by itself -/
theorem Shows.cooked_iff {f name : Text} (h : Shows .nested f (plainParts name)) : Cooked f t ↔ t = name := by
  have hname : Cooked f name := by
    refine ⟨_, h ['\x60'] [] [] (by decide) .close, ?_⟩
    rw [List.append_nil]
    exact standsFor_plainParts name
  constructor
  · exact fun ht => ht.unique hname
  · rintro rfl
    exact hname

/-! ## Class names -/

variable {v : Vocabulary} {arguments : List Argument} {c : Candidate} {index : Nat} {a : Argument}

/-- the class name of a candidate, with words between its brackets -/
def Candidate.valueClass (c : Candidate) (stem : Text) (ws : List Text) : Text :=
  c.variantPrefix ++ stem ++ "-[".toList ++ ['_'].intercalate ws ++ [']']

theorem not_isBlank_variantPrefix (c : Candidate) : ∀ d ∈ c.variantPrefix, isBlank d = false := by
  unfold Candidate.variantPrefix
  split
  · exact not_isBlank_responsivePrefix
  · exact fun d hd => nomatch hd

theorem not_isBlank_of_separated (h : Separated ws t) : ∀ w ∈ ws, ∀ d ∈ w, isBlank d = false := by
  rw [← h.words_eq]
  exact fun w hw => Text.not_isBlank_of_mem_words hw

/-- a class name has no blanks if the name in front of its brackets has none -/
theorem not_isBlank_valueClass (c : Candidate) {stem : Text} (hstem : ∀ d ∈ stem, isBlank d = false)
    (h : Separated ws t) : ∀ d ∈ c.valueClass stem ws, isBlank d = false := by
  have hvalue : ∀ d ∈ ['_'].intercalate ws, isBlank d = false :=
    Text.forall_mem_intercalate (by simp [isBlank]) (not_isBlank_of_separated h)
  unfold Candidate.valueClass
  simp only [List.forall_mem_append]
  exact ⟨⟨⟨⟨not_isBlank_variantPrefix c, hstem⟩, by simp [isBlank]⟩, hvalue⟩, by simp [isBlank]⟩

/-- what becomes of a key depends on the words of its constant only -/
theorem arbitraryValue_eq_of_words {b : Argument} (ha : a.kind = .constant) (hb : b.kind = .constant)
    (h : words b.value = words a.value) : c.arbitraryValue v b = c.arbitraryValue v a := by
  unfold Candidate.arbitraryValue
  rw [ha, hb, h]

/-- **A constant never splits its class.** Let a key without classes stand under a constant, and let the name in front
of the brackets have no blanks. The fragment of the template then gives one class name, with the words of the constant
between its brackets and an underscore between each two of them; the words are all of the constant but its blanks. Any
other constant with the same words gives the same fragment. -/
theorem resolve_constant (hclass : v.classOf? c.key = none) (hgate : c.gate = .argument index)
    (ha : arguments[index]? = some a) (hkind : a.kind = .constant) {stem : Text}
    (hstem : (v.prefixOf? c.key).getD c.key = stem) (hblank : ∀ d ∈ stem, isBlank d = false) :
    ∃ f notice ws, c.resolve v arguments = .ok (.fragment f notice) ∧
      Separated ws a.value ∧ ws.flatten = a.value.filter (fun d => !isBlank d) ∧
      (∀ X : ExpressionSyntax, Shows X f (plainParts (c.valueClass stem ws))) ∧
      (∀ t, Cooked f t ↔ t = c.valueClass stem ws) ∧
      (∀ d ∈ c.valueClass stem ws, isBlank d = false) ∧ words (c.valueClass stem ws) = [c.valueClass stem ws] ∧
      ∀ (others : List Argument) (i : Nat) (b : Argument), others[i]? = some b → b.kind = .constant →
        Separated ws b.value →
        ({ c with gate := .argument i } : Candidate).resolve v others = .ok (.fragment f notice) := by
  have hws := Text.separated_words a.value
  obtain ⟨notice, hvalue⟩ := arbitraryValue_of_constant (v := v) (c := c) hkind
  rw [hstem] at hvalue
  have hshows (X : ExpressionSyntax) :
      Shows X (c.arbitrary stem (escapeTemplate (bracketed a))) (plainParts (c.valueClass stem (words a.value))) :=
    shows_arbitrary c (oneLine_of_not_isBlank hblank) (oneLine_bracketed a)
  have hone := not_isBlank_valueClass c hblank hws
  refine ⟨_, notice, words a.value, ?_, hws, hws.flatten_eq, hshows, fun t => (hshows _).cooked_iff, hone, ?_, ?_⟩
  · rw [resolve_of_argument hclass hgate ha]
    exact hvalue
  · exact Text.words_of_not_isBlank (by simp [Candidate.valueClass]) hone
  · intro others i b hb hconstant hsame
    have hother : ({ c with gate := .argument i } : Candidate).resolve v others = c.arbitraryValue v b :=
      resolve_of_argument hclass rfl hb
    rw [hother, arbitraryValue_eq_of_words hkind hconstant hsame.words_eq]
    exact hvalue

/-- a responsive key under a constant with a word that ends in a backslash, one that ends in a dollar sign in front of a
brace, and an interpolation, and with blanks of several kinds at its ends and between its words -/
theorem resolve_constant_special :
    let v : Vocabulary := ⟨.empty, .ofList [("content".toList, "w$".toList)]⟩
    let a : Argument := .classify "' \u3000a\\ $\n\u00a0\x7bb\x60\t$\x7bc\x7d '".toList
    let c : Candidate := ⟨"content".toList, true, .argument 0⟩
    ∃ f notice, c.resolve v [a] = .ok (.fragment f notice) ∧
      (∀ t, Cooked f t ↔ t = "sm:w$-[a\\_$_\x7bb\x60_$\x7bc\x7d]".toList) ∧
      c.resolve v [.classify "'a\\ $ \x7bb\x60 $\x7bc\x7d'".toList] = .ok (.fragment f notice) := by
  intro v a c
  have hclass : v.classOf? c.key = none := by decide
  have hargument : [a][0]? = some a := rfl
  have hblank : ∀ d ∈ "w$".toList, isBlank d = false := by simp [isBlank]
  obtain ⟨f, notice, ws, hresolve, hws, _, _, hcooked, _, _, hsame⟩ :=
    resolve_constant hclass rfl hargument (by decide) rfl hblank
  obtain rfl : ws = ["a\\".toList, "$".toList, "\x7bb\x60".toList, "$\x7bc\x7d".toList] :=
    hws.words_eq.symm.trans (by decide)
  refine ⟨f, notice, hresolve, hcooked, ?_⟩
  exact hsame _ 0 _ rfl (by decide) (Text.words_eq_iff.1 (by decide))

end TerseStyle.Chain

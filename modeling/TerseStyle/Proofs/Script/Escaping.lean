/-
Escaped text, piece by piece. A character is escaped by itself, up to a dollar sign, which counts together with a brace
behind it. Only backslashes are added, so that blanks stay where they are.

Results:
- `escapeTemplate_cons`, `escapeTemplate_append`: what is escaped of a text does not depend on the text around it.
- `words_escapeTemplate`, `words_escapeSingleQuoted`: the words of escaped text are the escaped words.
-/
import TerseStyle.Proofs.Text.Basic
import TerseStyle.Script.Literal

namespace TerseStyle.Script

open Text (words)

/-! ## Templates -/

/-- one character of text for a template: the next one tells whether a dollar sign would open an interpolation -/
theorem escapeTemplate_cons (c : Char) (t : Text) :
    escapeTemplate (c :: t) =
      (if c = '\\' ∨ c = '\x60' ∨ c = '$' ∧ t.head? = some '{' then ['\\', c] else [c]) ++ escapeTemplate t := by
  rw [escapeTemplate.eq_def]
  split
  · rename_i h
    cases h
  · rename_i h
    cases h
    simp
  · rename_i h
    cases h
    simp [escapeTemplate]
  · rename_i hslash hdollar h
    cases h
    have hopen : ¬ (c = '$' ∧ t.head? = some '{') := by
      rintro ⟨rfl, hbrace⟩
      obtain ⟨more, rfl⟩ := List.head?_eq_some_iff.1 hbrace
      exact hdollar more rfl rfl
    have hslash : c ≠ '\\' := hslash
    by_cases hback : c = '\x60' <;> simp [hback, hslash, hopen]

/-- texts are escaped apart from each other, unless a brace starts the second one -/
theorem escapeTemplate_append (s : Text) {t : Text} (ht : t.head? ≠ some '{') :
    escapeTemplate (s ++ t) = escapeTemplate s ++ escapeTemplate t := by
  induction s with
  | nil => rfl
  | cons c s ih =>
    have hnext : (s ++ t).head? = some '{' ↔ s.head? = some '{' := by
      cases s with
      | nil => simp [ht]
      | cons => rfl
    rw [List.cons_append, escapeTemplate_cons, escapeTemplate_cons, ih, List.append_assoc]
    simp only [hnext]

/-- escaping adds backslashes only -/
theorem mem_escapeTemplate {t : Text} {d : Char} (h : d ∈ escapeTemplate t) : d ∈ t ∨ d = '\\' := by
  induction t with
  | nil => exact .inl h
  | cons c t ih =>
    rw [escapeTemplate_cons, List.mem_append] at h
    rcases h with h | h
    · split at h <;> simp only [List.mem_cons, List.not_mem_nil, or_false] at h ⊢ <;> tauto
    · exact (ih h).imp_left (List.mem_cons_of_mem c)

/-- **The words of text escaped for a template** are the escaped words. -/
theorem words_escapeTemplate (t : Text) : words (escapeTemplate t) = (words t).map escapeTemplate := by
  refine Text.words_map rfl ?_ ?_ ?_ t
  · intro c t hc
    have hapart : c ≠ '\\' ∧ c ≠ '\x60' ∧ c ≠ '$' := by
      refine ⟨?_, ?_, ?_⟩ <;>
      · rintro rfl
        exact absurd hc (by decide)
    rw [escapeTemplate_cons]
    simp [hapart]
  · intro w t ht
    refine escapeTemplate_append w fun hbrace => ?_
    rw [hbrace] at ht
    exact absurd ht (by decide)
  · intro w hne hw
    constructor
    · obtain ⟨c, t, rfl⟩ := List.exists_cons_of_ne_nil hne
      rw [escapeTemplate_cons]
      split <;> simp
    · intro c hc
      rcases mem_escapeTemplate hc with hc | rfl
      · exact hw c hc
      · decide

/-! ## Strings -/

theorem escapeSingleQuoted_append (s t : Text) :
    escapeSingleQuoted (s ++ t) = escapeSingleQuoted s ++ escapeSingleQuoted t := by
  induction s with
  | nil => rfl
  | cons c s ih =>
    rw [List.cons_append, escapeSingleQuoted, escapeSingleQuoted, ih]
    split <;> rfl

theorem mem_escapeSingleQuoted {t : Text} {d : Char} (h : d ∈ escapeSingleQuoted t) : d ∈ t ∨ d = '\\' := by
  induction t with
  | nil => exact .inl h
  | cons c t ih =>
    rw [escapeSingleQuoted] at h
    split at h <;> simp only [List.mem_cons] at h ⊢ <;> tauto

/-- **The words of text escaped for a string** are the escaped words. -/
theorem words_escapeSingleQuoted (t : Text) : words (escapeSingleQuoted t) = (words t).map escapeSingleQuoted := by
  refine Text.words_map rfl ?_ (fun w t _ => escapeSingleQuoted_append w t) ?_ t
  · intro c t hc
    have hapart : ¬ (c = '\\' ∨ c = '\'') := by
      rintro (rfl | rfl) <;> exact absurd hc (by decide)
    rw [escapeSingleQuoted, if_neg hapart]
  · intro w hne hw
    constructor
    · obtain ⟨c, t, rfl⟩ := List.exists_cons_of_ne_nil hne
      rw [escapeSingleQuoted]
      split <;> simp
    · intro c hc
      rcases mem_escapeSingleQuoted hc with hc | rfl
      · exact hw c hc
      · decide

end TerseStyle.Script

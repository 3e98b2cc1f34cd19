/-
One class in two places. A class that is always present is escaped for the template, one under a condition for the string
that the condition chooses. The template takes every character along; the string ends with its line, and the escaping
leaves line breaks as they are.

Results:
- `readsString_escapeSingleQuoted_iff`: escaped text is a string exactly if it has one line, and then stands for itself.
- `resolve_agrees_iff`: the class of a candidate with a condition and without one, and when the two are the same text.
-/
import TerseStyle.Proofs.Chain.Template

namespace TerseStyle.Chain

open Script

/-! ## Strings -/

theorem oneLine_cons {c : Char} {t : Text} : OneLine (c :: t) ↔ (c ≠ '\n' ∧ c ≠ '\r') ∧ OneLine t :=
  List.forall_mem_cons

theorem oneLine_iff {t : Text} : OneLine t ↔ '\n' ∉ t ∧ '\r' ∉ t := by
  constructor
  · exact fun h => ⟨fun hmem => (h _ hmem).1 rfl, h.return_notMem⟩
  · rintro ⟨hfeed, hreturn⟩ c hc
    refine ⟨?_, ?_⟩ <;>
    · rintro rfl
      contradiction

theorem oneLine_behind_variant (c : Candidate) (t : Text) : OneLine (c.variantPrefix ++ t) ↔ OneLine t := by
  constructor
  · exact fun h d hd => h d (List.mem_append_right _ hd)
  · exact (oneLine_variantPrefix c).append

/-- the escaping keeps every quote from closing the string, so its reading takes the text as a whole, and gets stuck at a
line break -/
theorem oneLine_of_readsString {s behind rest : Text} {parts : List QuotedPart}
    (h : ReadsString '\'' (escapeSingleQuoted s ++ '\'' :: behind) parts rest) : OneLine s := by
  induction s generalizing parts with
  | nil => exact fun _ hc => nomatch hc
  | cons c s ih =>
    rw [oneLine_cons]
    rw [escapeSingleQuoted] at h
    split at h
    · rename_i hspecial
      have hread (t : Text) : readEscape? (c :: t) = some ([.char c], t) := by
        rcases hspecial with rfl | rfl <;> rfl
      have hline : c ≠ '\n' ∧ c ≠ '\r' := by rcases hspecial with rfl | rfl <;> decide
      cases h with
      | char _ hslash => exact absurd rfl hslash
      | escape hescape h =>
        cases (hread _).symm.trans hescape
        exact ⟨hline, ih h⟩
    · rename_i hplain
      rw [not_or] at hplain
      cases h with
      | close => exact absurd rfl hplain.2
      | char _ _ hfeed hreturn h => exact ⟨⟨hfeed, hreturn⟩, ih h⟩
      | escape => exact absurd rfl hplain.1

/-- **Escaped text is a string exactly if it has one line**, and then it stands for itself. -/
theorem readsString_escapeSingleQuoted_iff {s behind rest : Text} {parts : List QuotedPart} :
    ReadsString '\'' (escapeSingleQuoted s ++ '\'' :: behind) parts rest ↔
      OneLine s ∧ parts = plainParts s ∧ rest = behind := by
  constructor
  · intro h
    have hline := oneLine_of_readsString h
    exact ⟨hline, h.unique (by decide) (readsString_escaped hline behind)⟩
  · rintro ⟨hline, rfl, rfl⟩
    exact readsString_escaped hline rest

/-! ## A candidate with and without its condition -/

/-- a candidate that is present whatever the arguments are -/
def Candidate.ungated (c : Candidate) : Candidate := { c with gate := .always }

variable {X : ExpressionSyntax} {v : Vocabulary} {arguments : List Argument} {c : Candidate} {className : Text}
  {index : Nat} {a : Argument}

theorem Candidate.resolve_of_gate (hclass : v.classOf? c.key = some className) (hgate : c.gate = .argument index)
    (ha : arguments[index]? = some a) :
    c.resolve v arguments = .ok (.fragment (gated (Text.trim a.raw) (c.variantPrefix ++ className)) none) := by
  unfold Candidate.resolve Candidate.gateArgument
  simp only [hclass, hgate, ha]
  rfl

theorem Candidate.resolve_ungated (hclass : v.classOf? c.key = some className) :
    c.ungated.resolve v arguments = .ok (.fragment (escapeTemplate (c.variantPrefix ++ className)) none) := by
  have hclass' : v.classOf? c.ungated.key = some className := hclass
  unfold Candidate.resolve
  rw [hclass']
  rfl

/-- **A class with and without a condition.** Let a candidate with a condition have a class without carriage returns. Its
fragment chooses a string. Without the condition its fragment stands for the class, behind its prefix, wherever a template
has it. The string stands for that same text and ends where it should if the class has one line; if a line feed is in the
class, the fragment has no string there at all. -/
theorem resolve_agrees_iff (hclass : v.classOf? c.key = some className) (hgate : c.gate = .argument index)
    (ha : arguments[index]? = some a) (hreturn : '\r' ∉ className) :
    ∃ body plain,
      c.resolve v arguments =
        .ok (.fragment ("$\x7b(".toList ++ Text.trim a.raw ++ ")?('".toList ++ body ++ "'):''\x7d".toList) none) ∧
      c.ungated.resolve v arguments = .ok (.fragment plain none) ∧
      Shows X plain (plainParts (c.variantPrefix ++ className)) ∧
      ∀ behind parts rest, ReadsString '\'' (body ++ '\'' :: behind) parts rest ↔
        '\n' ∉ className ∧ parts = plainParts (c.variantPrefix ++ className) ∧ rest = behind := by
  have hline : OneLine (c.variantPrefix ++ className) ↔ '\n' ∉ className := by
    rw [oneLine_behind_variant, oneLine_iff, and_iff_left hreturn]
  have htext : '\r' ∉ c.variantPrefix ++ className := by
    rw [List.mem_append, not_or]
    exact ⟨(oneLine_variantPrefix c).return_notMem, hreturn⟩
  refine ⟨_, _, Candidate.resolve_of_gate hclass hgate ha, Candidate.resolve_ungated hclass, shows_escaped htext, ?_⟩
  intro behind parts rest
  rw [readsString_escapeSingleQuoted_iff, hline]

/-- a class on two lines, and one with quotes and backslashes: the template has both, the string only the second one -/
theorem resolve_agrees_two_lines :
    let v : Vocabulary := ⟨.ofList [("multi".toList, "a\nb".toList), ("odd".toList, "it's \\$\x7bx\x7d".toList)], .empty⟩
    let arguments := [Argument.classify "on".toList]
    (∃ body, (⟨"multi".toList, false, .argument 0⟩ : Candidate).resolve v arguments =
        .ok (.fragment ("$\x7b(on)?('".toList ++ body ++ "'):''\x7d".toList) none) ∧
      ¬ ∃ parts, ReadsString '\'' (body ++ ['\'']) parts []) ∧
    ∃ body, (⟨"odd".toList, true, .argument 0⟩ : Candidate).resolve v arguments =
        .ok (.fragment ("$\x7b(on)?('".toList ++ body ++ "'):''\x7d".toList) none) ∧
      ReadsString '\'' (body ++ ['\'']) (plainParts "sm:it's \\$\x7bx\x7d".toList) [] := by
  intro v arguments
  have ha : arguments[0]? = some (Argument.classify "on".toList) := rfl
  have hmulti : v.classOf? "multi".toList = some "a\nb".toList := by decide
  have hodd : v.classOf? "odd".toList = some "it's \\$\x7bx\x7d".toList := by decide
  obtain ⟨body, _, hresolve, _, _, hreads⟩ :=
    resolve_agrees_iff (X := .nested) (c := ⟨"multi".toList, false, .argument 0⟩) hmulti rfl ha (by decide)
  obtain ⟨body', _, hresolve', _, _, hreads'⟩ :=
    resolve_agrees_iff (X := .nested) (c := ⟨"odd".toList, true, .argument 0⟩) hodd rfl ha (by decide)
  refine ⟨⟨body, hresolve, ?_⟩, body', hresolve', ?_⟩
  · rintro ⟨parts, h⟩
    exact absurd (by decide) ((hreads [] parts []).1 h).1
  · exact (hreads' [] _ []).2 ⟨by decide, by decide, rfl⟩

end TerseStyle.Chain

/-
Arguments that are taken for constants. An argument with a quote at either end is one, but only the ends are looked at:
what stands between them may be one string, or a string with more code behind it that happens to end with a quote, or a
string that is never closed. The three are told apart by the first quote behind the opening one that no backslash takes
along, and they are all the ways in which an argument can have a quote at either end.

Results:
- `Closing.all`: text behind a quote is closed at its end, or earlier, or never.
- `isNumber_of_quoted`, `isLiteral_apart`: what has a quote in front is no number, and is a literal in one way.
- `classify_constant_iff`: which arguments are constants, which of them are literals, and what a class gets of each.
-/
import Mathlib.Data.List.Induction
import TerseStyle.Proofs.Chain.Reformatting
import TerseStyle.Proofs.Script.Nesting

namespace TerseStyle.Chain

open Script (StringBody escapeTemplate)

/-! ## Text behind a quote -/

/-- where text behind a quote is closed by another one, the text being followed by one -/
inductive Closing (quote : Char) : Text → Prop
  | atEnd {body : Text} : StringBody quote body → Closing quote body
  | earlier {first more : Text} : StringBody quote first → Closing quote (first ++ quote :: more)
  /-- a backslash takes the quote at the end along -/
  | never {inner : Text} : StringBody quote inner → Closing quote (inner ++ ['\\'])

variable {quote : Char} {front t inner : Text}

/-- what belongs to a string in front of any other text does not change where that is closed -/
theorem Closing.behind (front : Text) (hfront : ∀ {t}, StringBody quote t → StringBody quote (front ++ t))
    (h : Closing quote t) : Closing quote (front ++ t) := by
  cases h with
  | atEnd h => exact .atEnd (hfront h)
  | earlier h =>
    rw [← List.append_assoc]
    exact .earlier (hfront h)
  | never h =>
    rw [← List.append_assoc]
    exact .never (hfront h)

/-- **Text behind a quote** is closed at its end, or earlier, or never. -/
theorem Closing.all (quote : Char) (t : Text) : Closing quote t := by
  have closed (t : Text) : Closing quote ([] ++ quote :: t) := .earlier .nil
  -- a backslash and the character behind it belong together, so the induction takes one or two characters
  induction t using List.twoStepInduction with
  | nil => exact .atEnd .nil
  | singleton c =>
    by_cases hquote : c = quote
    · rw [hquote]
      exact closed []
    · by_cases hslash : c = '\\'
      · rw [hslash]
        have hnever : Closing quote ([] ++ ['\\']) := .never .nil
        exact hnever
      · exact .atEnd (.plain hquote hslash .nil)
  | cons_cons c d t ih ih' =>
    by_cases hquote : c = quote
    · rw [hquote]
      exact closed (d :: t)
    · by_cases hslash : c = '\\'
      · rw [hslash]
        exact ih.behind ['\\', d] .escape
      · exact (ih' d).behind [c] (.plain hquote hslash)

/-- a backslash at the end would take a character along that is not there -/
theorem not_stringBody_backslash (h : StringBody quote inner) : ¬ StringBody quote (inner ++ ['\\']) := by
  induction h with
  | nil =>
    intro h
    cases h with
    | plain _ hslash => exact hslash rfl
  | @plain _ t _ hslash _ ih =>
    rw [List.cons_append]
    generalize t ++ ['\\'] = u at ih
    intro h
    cases h with
    | plain _ _ h => exact ih h
    | escape => exact hslash rfl
  | escape _ ih =>
    intro h
    cases h with
    | plain _ hslash => exact hslash rfl
    | escape h => exact ih h

/-! ## Arguments with quotes -/

/-- an argument that is one single-quoted string -/
def IsLiteral (raw : Text) : Prop := ∃ body, StringBody '\'' body ∧ raw = '\'' :: (body ++ ['\''])

/-- an argument that starts with a single-quoted string, goes on behind it, and ends with a quote -/
def GoesOn (raw : Text) : Prop :=
  ∃ first more, StringBody '\'' first ∧ raw = '\'' :: (first ++ '\'' :: (more ++ ['\'']))

/-- an argument that starts with a single-quoted string, the last quote of which a backslash takes along -/
def IsOpen (raw : Text) : Prop := ∃ inner, StringBody '\'' inner ∧ raw = '\'' :: (inner ++ ['\\', '\''])

variable {raw body : Text}

theorem unquote?_eq_some_iff : unquote? raw = some body ↔ raw = '\'' :: (body ++ ['\'']) := by
  unfold unquote?
  constructor
  · intro h
    split at h
    · rename_i rest
      split at h
      · rename_i hlast
        obtain ⟨inner, rfl⟩ := List.getLast?_eq_some_iff.1 hlast
        rw [List.dropLast_concat, Option.some.injEq] at h
        rw [h]
      · cases h
    · cases h
  · rintro rfl
    simp

/-- an argument with quotes at its ends is of one of the three kinds -/
theorem quoted_cases (raw : Text) :
    (∃ body, unquote? raw = some body) ↔ IsLiteral raw ∨ GoesOn raw ∨ IsOpen raw := by
  constructor
  · rintro ⟨body, h⟩
    obtain rfl := unquote?_eq_some_iff.1 h
    cases Closing.all '\'' body with
    | atEnd hbody => exact .inl ⟨body, hbody, rfl⟩
    | @earlier first more hfirst => exact .inr (.inl ⟨first, more, hfirst, by simp⟩)
    | @never inner hinner => exact .inr (.inr ⟨inner, hinner, by simp⟩)
  · rintro (⟨body, _, rfl⟩ | ⟨first, more, _, rfl⟩ | ⟨inner, _, rfl⟩)
    · exact ⟨body, unquote?_eq_some_iff.2 rfl⟩
    · exact ⟨first ++ '\'' :: more, unquote?_eq_some_iff.2 (by simp)⟩
    · exact ⟨inner ++ ['\\'], unquote?_eq_some_iff.2 (by simp)⟩

/-- what goes on behind a string, or is never closed, is no literal -/
theorem isLiteral_apart (h : IsLiteral raw) : ¬ GoesOn raw ∧ ¬ IsOpen raw := by
  obtain ⟨body, hbody, rfl⟩ := h
  constructor
  · rintro ⟨first, more, hfirst, heq⟩
    have htail := (List.cons.inj heq).2
    obtain rfl := hbody.unique (by decide) hfirst htail
    have hrest := (List.cons.inj (List.append_cancel_left htail)).2
    simp at hrest
  · rintro ⟨inner, hinner, heq⟩
    have htail : body ++ ['\''] = (inner ++ ['\\']) ++ ['\''] := by simpa using (List.cons.inj heq).2
    rw [List.append_cancel_right htail] at hbody
    exact not_stringBody_backslash hinner hbody

/-- text in quotes is no number -/
theorem isNumber_of_quoted (h : unquote? raw = some body) : isNumber raw = false := by
  have htrim := trim_of_quoted h
  obtain rfl := unquote?_eq_some_iff.1 h
  unfold isNumber
  rw [htrim]
  simp [dropSign, isDecimal]

/-! ## What becomes of them -/

variable {v : Vocabulary} {arguments : List Argument} {c : Candidate} {a : Argument} {index : Nat}

/-- a candidate without a class, under an argument, takes the value of that argument -/
theorem resolve_of_argument (hclass : v.classOf? c.key = none) (hgate : c.gate = .argument index)
    (ha : arguments[index]? = some a) : c.resolve v arguments = c.arbitraryValue v a := by
  unfold Candidate.resolve
  rw [hclass, hgate]
  change (c.gateArgument arguments index >>= fun a => c.arbitraryValue v a) = _
  rw [Candidate.gateArgument, ha]
  rfl

/-- under a constant it becomes a class that holds the words of the value -/
theorem arbitraryValue_of_constant (h : a.kind = .constant) :
    ∃ notice, c.arbitraryValue v a = .ok (.fragment (c.arbitrary ((v.prefixOf? c.key).getD c.key)
      (escapeTemplate (bracketed a))) notice) := by
  unfold Candidate.arbitraryValue
  rw [h]
  cases v.prefixOf? c.key with
  | none => exact ⟨_, rfl⟩
  | some stem => exact ⟨_, rfl⟩

/-- the value of a text in quotes is all of the text between them -/
theorem classify_of_quoted (h : unquote? raw = some body) : Argument.classify raw = ⟨.constant, body, raw⟩ := by
  unfold Argument.classify
  rw [isNumber_of_quoted h, h]
  rfl

/-- **Which arguments are constants.** Numbers and single-quoted strings are, but so is whatever starts with a
single-quoted string, goes on behind it and ends with a quote, and a string whose last quote is escaped; nothing else is.
So a constant that is no number is a string exactly where none of these is met. A candidate without a class gets one under
a constant and only there, and what it gets of an argument in quotes is all that stands between the first and the last
quote, code as well as strings. -/
theorem classify_constant_iff (raw : Text) :
    ((Argument.classify raw).kind = .constant ↔ isNumber raw = true ∨ IsLiteral raw ∨ GoesOn raw ∨ IsOpen raw) ∧
      (((Argument.classify raw).kind = .constant → isNumber raw = true ∨ IsLiteral raw) ↔
        ¬ GoesOn raw ∧ ¬ IsOpen raw) ∧
      ∀ (v : Vocabulary) (arguments : List Argument) (c : Candidate) (index : Nat), v.classOf? c.key = none →
        c.gate = .argument index → arguments[index]? = some (.classify raw) →
          ((∃ piece f, c.resolve v arguments = .ok piece ∧ piece.fragment? = some f) ↔
            (Argument.classify raw).kind = .constant) ∧
          ∀ body, raw = '\'' :: (body ++ ['\'']) → ∃ notice, c.resolve v arguments =
            .ok (.fragment (c.arbitrary ((v.prefixOf? c.key).getD c.key)
              (escapeTemplate (['_'].intercalate (Text.words body)))) notice) := by
  have hkind : (Argument.classify raw).kind = .constant ↔
      isNumber raw = true ∨ IsLiteral raw ∨ GoesOn raw ∨ IsOpen raw := by
    rw [kind_eq_constant_iff, quoted_cases]
  refine ⟨hkind, ?_, ?_⟩
  · rw [hkind]
    constructor
    · intro honly
      -- neither kind is a number or a string
      have apart (h : GoesOn raw ∨ IsOpen raw) : ¬ (isNumber raw = true ∨ IsLiteral raw) := by
        obtain ⟨body, hbody⟩ := (quoted_cases raw).2 (.inr h)
        rw [isNumber_of_quoted hbody]
        rintro (⟨⟨⟩⟩ | hliteral)
        obtain ⟨hgoes, hopen⟩ := isLiteral_apart hliteral
        exact h.elim hgoes hopen
      exact ⟨fun h => apart (.inl h) (honly (.inr (.inr (.inl h)))),
        fun h => apart (.inr h) (honly (.inr (.inr (.inr h))))⟩
    · rintro ⟨hgoes, hopen⟩ (hnumber | hliteral | h | h)
      · exact .inl hnumber
      · exact .inr hliteral
      · exact absurd h hgoes
      · exact absurd h hopen
  · intro v arguments c index hclass hgate ha
    rw [resolve_of_argument hclass hgate ha]
    constructor
    · constructor
      · rintro ⟨piece, f, hpiece, hf⟩
        exact (arbitraryValue_fragment_iff hpiece).1 ⟨f, hf⟩
      · intro h
        obtain ⟨notice, hpiece⟩ := arbitraryValue_of_constant (v := v) (c := c) h
        exact ⟨_, _, hpiece, rfl⟩
    · intro body hbody
      have hvalue := classify_of_quoted (unquote?_eq_some_iff.2 hbody)
      obtain ⟨notice, hpiece⟩ := arbitraryValue_of_constant (v := v) (c := c) (a := .classify raw) (by rw [hvalue])
      rw [bracketed, hvalue] at hpiece
      rw [hvalue]
      exact ⟨notice, hpiece⟩

/-- a sum of two strings is taken for a constant, and its code becomes a class -/
theorem classify_constant_sum :
    let raw := "'1px' + size + '2px'".toList
    let v : Vocabulary := ⟨.empty, .ofList [("width".toList, "w".toList)]⟩
    let c : Candidate := ⟨"width".toList, false, .argument 0⟩
    GoesOn raw ∧ (Argument.classify raw).kind = .constant ∧
      ∃ notice, c.resolve v [.classify raw] = .ok (.fragment "w-[1px'_+_size_+_'2px]".toList notice) := by
  intro raw v c
  have hgoes : GoesOn raw := by
    refine ⟨"1px".toList, " + size + '2px".toList, ?_, by decide⟩
    exact .plain (by decide) (by decide) (.plain (by decide) (by decide) (.plain (by decide) (by decide) .nil))
  obtain ⟨hkind, -, hclasses⟩ := classify_constant_iff raw
  refine ⟨hgoes, hkind.2 (.inr (.inr (.inl hgoes))), ?_⟩
  obtain ⟨-, hquoted⟩ := hclasses v [.classify raw] c 0 (by decide) rfl rfl
  obtain ⟨notice, hresolve⟩ := hquoted "1px' + size + '2px".toList (by decide)
  exact ⟨notice, hresolve⟩

end TerseStyle.Chain

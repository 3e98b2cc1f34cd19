/-
What quoted text stands for. A string gives the characters between its quotes, a template those between its backticks
with expressions in between; a backslash and what follows it stand for something else. The rules are those of the script
language in strict code. Which texts are expressions is left open: all that matters here is where an expression ends.

Results:
- `ReadsString.unique`, `ReadsTemplate.unique`: quoted text stands for one thing, and ends at one place.
- `readsString_escaped`, `readsTemplate_escaped`: text that was escaped stands for itself.
-/
import TerseStyle.Proofs.Script.Nesting
import TerseStyle.Script.Literal
import TerseStyle.Script.Token

namespace TerseStyle.Script

/-! ## Escapes -/

/-- what quoted text holds, piece by piece -/
inductive QuotedPart where
  | char (c : Char)
  /-- a character, or half of one, given by its number -/
  | code (n : Nat)
  /-- an expression between the characters of a template -/
  | interpolation (e : Text)
  deriving DecidableEq, Repr

/-- the parts of text that stands for itself -/
def plainParts (t : Text) : List QuotedPart := t.map .char

/-- the characters that end a line -/
def isLineEnd (c : Char) : Bool := c = '\n' || c = '\r' || c = '\u2028' || c = '\u2029'

/-- what a character stands for behind a backslash, unless it starts a code -/
def escapedChar : Char → Char
  | 'b' => '\x08'
  | 'f' => '\x0c'
  | 'n' => '\n'
  | 'r' => '\r'
  | 't' => '\t'
  | 'v' => '\x0b'
  | c => c

/-- reads a code of `n` digits; also the text behind it -/
def readDigits? (n : Nat) (t : Text) : Option (List QuotedPart × Text) :=
  if (t.take n).length = n ∧ (t.take n).all isHexDigit then some ([.code (hexNumber (t.take n))], t.drop n) else none

/-- reads a code up to its closing brace; also the text behind it -/
def readBraced? (t : Text) : Option (List QuotedPart × Text) :=
  let digits := t.takeWhile isHexDigit
  match t.dropWhile isHexDigit with
  | '}' :: rest => if digits = [] ∨ 0x10FFFF < hexNumber digits then none else some ([.code (hexNumber digits)], rest)
  | _ => none

/-- reads what follows a backslash, which at the end of a line stands for nothing; also the text behind it -/
def readEscape? : Text → Option (List QuotedPart × Text)
  | [] => none
  | '\r' :: '\n' :: t => some ([], t)
  | 'x' :: t => readDigits? 2 t
  | 'u' :: '{' :: t => readBraced? t
  | 'u' :: t => readDigits? 4 t
  | '0' :: t => if t.head?.any Char.isDigit then none else some ([.char '\x00'], t)
  | c :: t => if isLineEnd c then some ([], t) else if c.isDigit then none else some ([.char (escapedChar c)], t)

/-! ## Strings -/

/-- `ReadsString quote t parts rest`: behind an opening quote, `t` starts with what stands for `parts` and a closing
quote, and goes on with `rest` -/
inductive ReadsString (quote : Char) : Text → List QuotedPart → Text → Prop
  | close {rest : Text} : ReadsString quote (quote :: rest) [] rest
  | char {c : Char} {t rest : Text} {parts : List QuotedPart} : c ≠ quote → c ≠ '\\' → c ≠ '\n' → c ≠ '\r' →
      ReadsString quote t parts rest → ReadsString quote (c :: t) (.char c :: parts) rest
  | escape {t t' rest : Text} {escaped parts : List QuotedPart} : readEscape? t = some (escaped, t') →
      ReadsString quote t' parts rest → ReadsString quote ('\\' :: t) (escaped ++ parts) rest

theorem ReadsString.unique {quote : Char} (hquote : quote ≠ '\\') {t rest rest' : Text} {ps qs : List QuotedPart}
    (h : ReadsString quote t ps rest) (h' : ReadsString quote t qs rest') : ps = qs ∧ rest = rest' := by
  induction h generalizing qs rest' with
  | close =>
    cases h' with
    | close => exact ⟨rfl, rfl⟩
    | char hne => exact absurd rfl hne
    | escape => exact absurd rfl hquote
  | char hne hslash _ _ _ ih =>
    cases h' with
    | close => exact absurd rfl hne
    | char _ _ _ _ h' =>
      obtain ⟨rfl, rfl⟩ := ih h'
      exact ⟨rfl, rfl⟩
    | escape => exact absurd rfl hslash
  | escape hread _ ih =>
    cases h' with
    | close => exact absurd rfl hquote
    | char _ hslash => exact absurd rfl hslash
    | escape hread' h' =>
      rw [hread, Option.some.injEq, Prod.mk.injEq] at hread'
      obtain ⟨rfl, rfl⟩ := hread'
      obtain ⟨rfl, rfl⟩ := ih h'
      exact ⟨rfl, rfl⟩

/-- **Escaped text is a string that stands for it**, if it has one line. -/
theorem readsString_escaped {s : Text} (hs : ∀ c ∈ s, c ≠ '\n' ∧ c ≠ '\r') (rest : Text) :
    ReadsString '\'' (escapeSingleQuoted s ++ '\'' :: rest) (plainParts s) rest := by
  induction s with
  | nil => exact .close
  | cons c s ih =>
    have hrest := ih fun d hd => hs d (List.mem_cons_of_mem c hd)
    obtain ⟨hline, hreturn⟩ := hs c List.mem_cons_self
    rw [escapeSingleQuoted]
    split
    · rename_i hspecial
      have hread (t : Text) : readEscape? (c :: t) = some ([.char c], t) := by
        rcases hspecial with rfl | rfl <;> rfl
      exact .escape (hread _) hrest
    · rename_i hplain
      rw [not_or] at hplain
      exact .char hplain.2 hplain.1 hline hreturn hrest

/-! ## Templates -/

/-- the expressions of a script language that are complete and hold no comments -/
structure ExpressionSyntax where
  Complete : Text → Prop
  /-- braces pair up in an expression, so none goes on behind a closing brace that follows a complete one -/
  closed {e t : Text} : Complete e → ¬ Complete (e ++ '}' :: t)
  /-- blanks around an expression do not matter -/
  trimmed {e : Text} : Complete e → Complete (Text.trim e)
  /-- an expression in parentheses can be the test of a conditional one that gives a string or nothing -/
  conditional {e body : Text} {parts : List QuotedPart} : Complete e → ReadsString '\'' (body ++ ['\'']) parts [] →
      Complete ("(".toList ++ e ++ ")?('".toList ++ body ++ "'):''".toList)

/-- the text behind a carriage return, which takes a line feed along -/
def behindReturn : Text → Text
  | '\n' :: t => t
  | t => t

/-- `ReadsTemplate X t parts rest`: behind an opening backtick, `t` starts with what stands for `parts` and a closing
backtick, and goes on with `rest` -/
inductive ReadsTemplate (X : ExpressionSyntax) : Text → List QuotedPart → Text → Prop
  | close {rest : Text} : ReadsTemplate X ('\x60' :: rest) [] rest
  | char {c : Char} {t rest : Text} {parts : List QuotedPart} : c ≠ '\x60' → c ≠ '\\' → c ≠ '\r' →
      (c = '$' → t.head? ≠ some '{') → ReadsTemplate X t parts rest → ReadsTemplate X (c :: t) (.char c :: parts) rest
  | lineEnd {t rest : Text} {parts : List QuotedPart} : ReadsTemplate X (behindReturn t) parts rest →
      ReadsTemplate X ('\r' :: t) (.char '\n' :: parts) rest
  | escape {t t' rest : Text} {escaped parts : List QuotedPart} : readEscape? t = some (escaped, t') →
      ReadsTemplate X t' parts rest → ReadsTemplate X ('\\' :: t) (escaped ++ parts) rest
  | interpolation {e t rest : Text} {parts : List QuotedPart} : X.Complete e → ReadsTemplate X t parts rest →
      ReadsTemplate X ('$' :: '{' :: (e ++ '}' :: t)) (.interpolation e :: parts) rest

variable {X : ExpressionSyntax}

/-- an interpolation ends at one place -/
theorem ExpressionSyntax.unique {e e' t t' : Text} (he : X.Complete e) (he' : X.Complete e')
    (h : e ++ '}' :: t = e' ++ '}' :: t') : e = e' ∧ t = t' := by
  rcases List.append_eq_append_iff.1 h with ⟨more, rfl, hmore⟩ | ⟨more, rfl, hmore⟩
  · cases more with
    | nil => exact ⟨(List.append_nil e).symm, (List.cons.inj hmore).2⟩
    | cons c more =>
      obtain ⟨rfl, _⟩ := List.cons.inj hmore
      exact absurd he' (X.closed he)
  · cases more with
    | nil => exact ⟨List.append_nil e', (List.cons.inj hmore).2.symm⟩
    | cons c more =>
      obtain ⟨rfl, _⟩ := List.cons.inj hmore
      exact absurd he (X.closed he')

theorem ReadsTemplate.unique {t rest rest' : Text} {ps qs : List QuotedPart} (h : ReadsTemplate X t ps rest)
    (h' : ReadsTemplate X t qs rest') : ps = qs ∧ rest = rest' := by
  induction h generalizing qs rest' with
  | close =>
    cases h' with
    | close => exact ⟨rfl, rfl⟩
    | char hne => exact absurd rfl hne
  | char hback hslash hreturn hdollar _ ih =>
    cases h' with
    | close => exact absurd rfl hback
    | char _ _ _ _ h' =>
      obtain ⟨rfl, rfl⟩ := ih h'
      exact ⟨rfl, rfl⟩
    | lineEnd => exact absurd rfl hreturn
    | escape => exact absurd rfl hslash
    | interpolation => exact absurd rfl (hdollar rfl)
  | lineEnd _ ih =>
    cases h' with
    | char _ _ hreturn => exact absurd rfl hreturn
    | lineEnd h' =>
      obtain ⟨rfl, rfl⟩ := ih h'
      exact ⟨rfl, rfl⟩
  | escape hread _ ih =>
    cases h' with
    | char _ hslash => exact absurd rfl hslash
    | escape hread' h' =>
      rw [hread, Option.some.injEq, Prod.mk.injEq] at hread'
      obtain ⟨rfl, rfl⟩ := hread'
      obtain ⟨rfl, rfl⟩ := ih h'
      exact ⟨rfl, rfl⟩
  | @interpolation e t rest parts he _ ih =>
    generalize hu : '$' :: '{' :: (e ++ '}' :: t) = u at h'
    cases h' with
    | char _ _ _ hdollar =>
      obtain ⟨rfl, rfl⟩ := List.cons.inj hu
      exact absurd rfl (hdollar rfl)
    | interpolation he' h' =>
      obtain ⟨rfl, rfl⟩ := X.unique he he' (List.cons.inj (List.cons.inj hu).2).2
      obtain ⟨rfl, rfl⟩ := ih h'
      exact ⟨rfl, rfl⟩
    | _ => cases (List.cons.inj hu).1

/-- a special character behind a backslash stands for itself -/
theorem ReadsTemplate.special {c : Char} {t rest : Text} {parts : List QuotedPart} (hc : c ∈ ['\\', '$', '\x60'])
    (h : ReadsTemplate X t parts rest) : ReadsTemplate X ('\\' :: c :: t) (.char c :: parts) rest := by
  have hread : readEscape? (c :: t) = some ([.char c], t) := by
    simp only [List.mem_cons, List.not_mem_nil, or_false] at hc
    rcases hc with rfl | rfl | rfl <;> rfl
  exact .escape hread h

/-- an interpolation is opened by escaped text only if it goes on with what opens it -/
theorem head?_escapeTemplate {s t : Text} (hs : s.head? ≠ some '{') (ht : t.head? ≠ some '{') :
    (escapeTemplate s ++ t).head? ≠ some '{' := by
  induction s using escapeTemplate.induct with
  | case1 => exact ht
  | case2 => simp [escapeTemplate]
  | case3 => simp [escapeTemplate]
  | case4 s => simp [escapeTemplate]
  | case5 c s hslash hdollar hback =>
    rw [escapeTemplate]
    · simp only [hback, if_false]
      simpa using hs
    · exact hslash
    · exact hdollar

/-- **Escaped text stands for itself in a template**, unless it has a carriage return. -/
theorem readsTemplate_escaped {s t rest : Text} {parts : List QuotedPart} (hs : '\r' ∉ s) (ht : t.head? ≠ some '{')
    (h : ReadsTemplate X t parts rest) : ReadsTemplate X (escapeTemplate s ++ t) (plainParts s ++ parts) rest := by
  induction s using escapeTemplate.induct with
  | case1 => exact h
  | case2 s ih =>
    rw [List.mem_cons, not_or] at hs
    exact .special (by simp) (ih hs.2)
  | case3 s ih =>
    simp only [List.mem_cons, not_or] at hs
    have hbrace : ReadsTemplate X ('{' :: (escapeTemplate s ++ t)) (.char '{' :: (plainParts s ++ parts)) rest :=
      .char (by decide) (by decide) (by decide) (by simp) (ih hs.2.2)
    exact .special (by simp) hbrace
  | case4 s _ _ ih =>
    rw [List.mem_cons, not_or] at hs
    exact .special (by simp) (ih hs.2)
  | case5 c s hslash hdollar hback ih =>
    rw [List.mem_cons, not_or] at hs
    rw [escapeTemplate]
    · rw [if_neg hback]
      refine .char hback hslash (Ne.symm hs.1) ?_ (ih hs.2)
      intro hc
      refine head?_escapeTemplate ?_ ht
      intro hbrace
      obtain ⟨more, rfl⟩ := List.head?_eq_some_iff.1 hbrace
      exact hdollar more hc rfl
    · exact hslash
    · exact hdollar

/-! ## Code as expressions -/

theorem isHexDigit_apart {d : Char} (h : isHexDigit d = true) : d ≠ '\'' ∧ d ≠ '"' ∧ d ≠ '\\' := by
  refine ⟨?_, ?_, ?_⟩ <;>
  · rintro rfl
    exact absurd h (by decide)

/-- an escape takes a character along, and behind it only digits, braces and a line feed -/
theorem readEscape?_cases {t t' : Text} {parts : List QuotedPart} (h : readEscape? t = some (parts, t')) :
    ∃ c more, t = c :: (more ++ t') ∧ ∀ d ∈ more, isHexDigit d = true ∨ d = '{' ∨ d = '}' ∨ d = '\n' := by
  have hdigits {n : Nat} {t : Text} (h : readDigits? n t = some (parts, t')) :
      ∃ more, t = more ++ t' ∧ ∀ d ∈ more, isHexDigit d = true := by
    unfold readDigits? at h
    split at h
    · rename_i hall
      cases h
      exact ⟨t.take n, (List.take_append_drop n t).symm, List.all_eq_true.1 hall.2⟩
    · cases h
  unfold readEscape? at h
  split at h
  · cases h
  · cases h
    exact ⟨_, ['\n'], rfl, by simp⟩
  · obtain ⟨more, rfl, hmore⟩ := hdigits h
    exact ⟨_, more, rfl, fun d hd => Or.inl (hmore d hd)⟩
  · rename_i t
    unfold readBraced? at h
    simp only at h
    split at h
    · rename_i rest hrest
      split at h <;> cases h
      refine ⟨'u', '{' :: (t.takeWhile isHexDigit ++ ['}']), ?_, ?_⟩
      · rw [List.cons_append, List.append_assoc, List.singleton_append, ← hrest, List.takeWhile_append_dropWhile]
      · intro d hd
        rw [List.mem_cons, List.mem_append, List.mem_singleton] at hd
        rcases hd with hd | hd | hd
        · exact Or.inr (Or.inl hd)
        · exact Or.inl (List.all_eq_true.1 List.all_takeWhile d hd)
        · exact Or.inr (Or.inr (Or.inl hd))
    · cases h
  · obtain ⟨more, rfl, hmore⟩ := hdigits h
    exact ⟨_, more, rfl, fun d hd => Or.inl (hmore d hd)⟩
  · split at h <;> cases h
    exact ⟨_, [], rfl, by simp⟩
  · split at h
    · cases h
      exact ⟨_, [], rfl, by simp⟩
    · split at h <;> cases h
      exact ⟨_, [], rfl, by simp⟩

/-- what is read as a string is one -/
theorem ReadsString.body {quote : Char} (hquote : quote = '\'' ∨ quote = '"') {t rest : Text} {parts : List QuotedPart}
    (h : ReadsString quote t parts rest) : ∃ body, t = body ++ quote :: rest ∧ StringBody quote body := by
  induction h with
  | close => exact ⟨[], rfl, .nil⟩
  | char hne hslash _ _ _ ih =>
    obtain ⟨body, rfl, hbody⟩ := ih
    exact ⟨_ :: body, rfl, hbody.plain hne hslash⟩
  | escape hread _ ih =>
    obtain ⟨body, rfl, hbody⟩ := ih
    obtain ⟨c, more, rfl, hmore⟩ := readEscape?_cases hread
    refine ⟨'\\' :: c :: (more ++ body), by simp, .escape ?_⟩
    clear hread
    induction more with
    | nil => exact hbody
    | cons d more ih =>
      have hd : d ≠ quote ∧ d ≠ '\\' := by
        rcases hmore d List.mem_cons_self with hd | rfl | rfl | rfl
        · obtain ⟨hsingle, hdouble, hslash⟩ := isHexDigit_apart hd
          rcases hquote with rfl | rfl
          · exact ⟨hsingle, hslash⟩
          · exact ⟨hdouble, hslash⟩
        all_goals rcases hquote with rfl | rfl <;> decide
      exact .plain hd.1 hd.2 (ih fun e he => hmore e (List.mem_cons_of_mem d he))

/-- code with strings, seen by its brackets, as expressions -/
def ExpressionSyntax.nested : ExpressionSyntax where
  Complete := Nested StringLiteral
  closed he := he.not_append_closing rfl _
  trimmed he := he.trim
  conditional {e body parts} he hbody := by
    obtain ⟨body', heq, hbody'⟩ := hbody.body (Or.inl rfl)
    obtain ⟨rfl, _⟩ := List.append_inj' heq rfl
    have hstring {body : Text} (h : StringBody '\'' body) : Nested StringLiteral ('\'' :: (body ++ ['\''])) :=
      .of_literal (.quoted (Or.inl rfl) h)
    have hresults :
        Nested StringLiteral ('(' :: ('\'' :: (body ++ ['\'']) ++ ')' :: ':' :: ('\'' :: ([] ++ ['\''])))) :=
      .group rfl (hstring hbody') (.plain rfl (hstring .nil))
    have htext : "(".toList ++ e ++ ")?('".toList ++ body ++ "'):''".toList =
        '(' :: (e ++ ')' :: '?' :: ('(' :: ('\'' :: (body ++ ['\'']) ++ ')' :: ':' :: ('\'' :: ([] ++ ['\'']))))) := by
      simp
    rw [htext]
    exact .group rfl he (.plain rfl hresults)

end TerseStyle.Script

/-
The lexemes of a text and the texts of lexemes. Cutting a text is a function; which texts are cut into given lexemes is a
relation, in which blanks may stand in front of each lexeme and at the end, a name is as long as possible, and a quote
that is never closed takes the rest of the text with it.

Results:
- `lexemes_name`, `lexemes_quoted`, `lexemes_mark`: the first lexeme of a text, by what the text starts with.
- `lexemes_eq_iff`: cutting is told by the relation, in both directions.
-/
import TerseStyle.Proofs.Chain.Spelling

namespace TerseStyle.Chain

open Text (isBlankOnly isBlankOnly_cons)

variable {c : Char} {t : Text}

/-! ## The first lexeme -/

theorem lexemes_nil : lexemes [] = [] := by rw [lexemes, lexemesFrom]

theorem lexemes_blank (h : isBlank c = true) (t : Text) : lexemes (c :: t) = lexemes t := by
  have hquote : c ≠ '"' := by
    rintro rfl
    exact absurd h (by decide)
  rw [lexemes_cons, if_neg hquote, if_neg (by simp [isNameChar_of_isBlank h]), if_pos h]

theorem lexemes_gap {gap : Text} (h : isBlankOnly gap = true) (t : Text) : lexemes (gap ++ t) = lexemes t := by
  induction gap with
  | nil => rfl
  | cons c gap ih =>
    rw [isBlankOnly_cons, Bool.and_eq_true] at h
    rw [List.cons_append, lexemes_blank h.1, ih h.2]

theorem lexemes_nameChar (h : isNameChar c = true) (t : Text) : lexemes (c :: t) = addNameChar c t (lexemes t) := by
  have hquote : c ≠ '"' := by
    rintro rfl
    exact absurd h (by decide)
  rw [lexemes_cons, if_neg hquote, if_pos h]

/-- a name as long as possible is one lexeme -/
theorem lexemes_name {name : Text} (hne : name ≠ []) (hname : ∀ c ∈ name, isNameChar c = true)
    (ht : ∀ c ∈ t.head?, isNameChar c = false) : lexemes (name ++ t) = .name name :: lexemes t := by
  induction name with
  | nil => exact absurd rfl hne
  | cons c name ih =>
    rw [List.cons_append, lexemes_nameChar (hname c List.mem_cons_self)]
    cases name with
    | nil =>
      have hany : t.head?.any isNameChar = false := by
        cases h : t.head? with
        | none => rfl
        | some d => exact ht d h
      unfold addNameChar
      rw [List.nil_append, hany]
      split <;> simp
    | cons d name =>
      rw [ih (List.cons_ne_nil d name) fun e he => hname e (List.mem_cons_of_mem c he)]
      have hd : isNameChar d = true := hname d (by simp)
      rw [addNameChar, List.cons_append, List.head?_cons, Option.any_some, hd, if_pos rfl]

theorem lexemes_mark (hblank : isBlank c = false) (hname : isNameChar c = false) (hquote : c ≠ '"') (t : Text) :
    lexemes (c :: t) = .mark c :: lexemes t := by
  rw [lexemes_cons, if_neg hquote, if_neg (by simp [hname]), if_neg (by simp [hblank])]

theorem lexemesFrom_quoted (inner q t : Text) (h : ∀ c ∈ q, c ≠ '"') :
    lexemesFrom (some inner) (q ++ '"' :: t) = .quoted (inner.reverse ++ q) :: lexemesFrom none t := by
  induction q generalizing inner with
  | nil => rw [List.nil_append, lexemesFrom, if_pos rfl, List.append_nil]
  | cons c q ih =>
    have hrest : ∀ d ∈ q, d ≠ '"' := fun d hd => h d (List.mem_cons_of_mem c hd)
    rw [List.cons_append, lexemesFrom, if_neg (h c List.mem_cons_self), ih _ hrest]
    simp

/-- a text in quotes is one lexeme -/
theorem lexemes_quoted {q : Text} (h : ∀ c ∈ q, c ≠ '"') (t : Text) :
    lexemes ('"' :: (q ++ '"' :: t)) = .quoted q :: lexemes t := by
  rw [lexemes_cons, if_pos rfl, lexemesFrom_quoted [] q t h]
  rfl

theorem lexemesFrom_unclosed {inner : Text} (h : ∀ c ∈ t, c ≠ '"') : lexemesFrom (some inner) t = [.mark '"'] := by
  induction t generalizing inner with
  | nil => rw [lexemesFrom]
  | cons c t ih =>
    rw [lexemesFrom, if_neg (h c List.mem_cons_self)]
    exact ih fun d hd => h d (List.mem_cons_of_mem c hd)

/-- a quote that is never closed is the last lexeme -/
theorem lexemes_unclosed (h : ∀ c ∈ t, c ≠ '"') : lexemes ('"' :: t) = [.mark '"'] := by
  rw [lexemes_cons, if_pos rfl, lexemesFrom_unclosed h]

/-! ## The texts of lexemes -/

/-- the texts that are cut into given lexemes -/
inductive Renders : List Lexeme → Text → Prop
  | blanks {gap : Text} (hgap : isBlankOnly gap = true) : Renders [] gap
  | name {gap name rest : Text} {ls : List Lexeme} (hgap : isBlankOnly gap = true) (hne : name ≠ [])
      (hname : ∀ c ∈ name, isNameChar c = true) (hlong : ∀ c ∈ rest.head?, isNameChar c = false)
      (h : Renders ls rest) : Renders (.name name :: ls) (gap ++ (name ++ rest))
  | quoted {gap q rest : Text} {ls : List Lexeme} (hgap : isBlankOnly gap = true) (hq : ∀ c ∈ q, c ≠ '"')
      (h : Renders ls rest) : Renders (.quoted q :: ls) (gap ++ '"' :: (q ++ '"' :: rest))
  | unclosed {gap rest : Text} (hgap : isBlankOnly gap = true) (hrest : ∀ c ∈ rest, c ≠ '"') :
      Renders [.mark '"'] (gap ++ '"' :: rest)
  | mark {gap rest : Text} {c : Char} {ls : List Lexeme} (hgap : isBlankOnly gap = true) (hblank : isBlank c = false)
      (hname : isNameChar c = false) (hquote : c ≠ '"') (h : Renders ls rest) :
      Renders (.mark c :: ls) (gap ++ c :: rest)

theorem Renders.lexemes_eq {ls : List Lexeme} (h : Renders ls t) : lexemes t = ls := by
  induction h with
  | @blanks gap hgap =>
    have := lexemes_gap hgap []
    rwa [List.append_nil, lexemes_nil] at this
  | name hgap hne hname hlong _ ih => rw [lexemes_gap hgap, lexemes_name hne hname hlong, ih]
  | quoted hgap hq _ ih => rw [lexemes_gap hgap, lexemes_quoted hq, ih]
  | unclosed hgap hrest => rw [lexemes_gap hgap, lexemes_unclosed hrest]
  | mark hgap hblank hname hquote _ ih => rw [lexemes_gap hgap, lexemes_mark hblank hname hquote, ih]

/-- blanks in front do not matter -/
theorem Renders.behind {gap : Text} {ls : List Lexeme} (hgap : isBlankOnly gap = true) (h : Renders ls t) :
    Renders ls (gap ++ t) := by
  have hboth {gap' : Text} (hgap' : isBlankOnly gap' = true) : isBlankOnly (gap ++ gap') = true := by
    rw [Text.isBlankOnly_append, hgap, hgap']
    rfl
  cases h with
  | blanks hgap' => exact .blanks (hboth hgap')
  | name hgap' hne hname hlong h =>
    rw [← List.append_assoc]
    exact .name (hboth hgap') hne hname hlong h
  | quoted hgap' hq h =>
    rw [← List.append_assoc]
    exact .quoted (hboth hgap') hq h
  | unclosed hgap' hrest =>
    rw [← List.append_assoc]
    exact .unclosed (hboth hgap') hrest
  | mark hgap' hblank hname hquote h =>
    rw [← List.append_assoc]
    exact .mark (hboth hgap') hblank hname hquote h

/-- every text is cut as the relation has it -/
theorem renders_lexemes (n : Nat) {t : Text} (hn : t.length ≤ n) : Renders (lexemes t) t := by
  -- the induction is on a bound of the length, because a lexeme takes several characters at once
  induction n generalizing t with
  | zero =>
    obtain rfl := List.length_eq_zero_iff.1 (Nat.le_zero.1 hn)
    rw [lexemes_nil]
    exact .blanks rfl
  | succ n ih =>
    have hnil : isBlankOnly [] = true := rfl
    cases t with
    | nil =>
      rw [lexemes_nil]
      exact .blanks rfl
    | cons c t =>
      rw [List.length_cons, Nat.succ_le_succ_iff] at hn
      by_cases hblank : isBlank c = true
      · have hgap : isBlankOnly [c] = true := by
          rw [isBlankOnly_cons, hblank]
          rfl
        rw [lexemes_blank hblank]
        exact (ih hn).behind hgap
      by_cases hquote : c = '"'
      · subst hquote
        by_cases hclosed : '"' ∈ t
        · obtain ⟨q, rest, rfl, hq⟩ := List.eq_append_cons_of_mem hclosed
          have hq : ∀ c ∈ q, c ≠ '"' := fun c hc heq => hq (heq ▸ hc)
          rw [lexemes_quoted hq]
          refine .quoted hnil hq (ih ?_)
          simp only [List.length_append, List.length_cons] at hn
          omega
        · have hopen : ∀ c ∈ t, c ≠ '"' := fun c hc heq => hclosed (heq ▸ hc)
          rw [lexemes_unclosed hopen]
          exact .unclosed hnil hopen
      by_cases hname : isNameChar c = true
      · -- the name is as long as possible
        have hsplit : c :: t = (c :: t.takeWhile isNameChar) ++ t.dropWhile isNameChar := by
          rw [List.cons_append, List.takeWhile_append_dropWhile]
        have hchars : ∀ d ∈ c :: t.takeWhile isNameChar, isNameChar d = true :=
          List.forall_mem_cons.2 ⟨hname, List.all_eq_true.1 List.all_takeWhile⟩
        have hlong : ∀ d ∈ (t.dropWhile isNameChar).head?, isNameChar d = false := by
          intro d hd
          have := List.head?_dropWhile_not isNameChar t
          rw [Option.mem_def] at hd
          rw [hd] at this
          simpa using this
        rw [hsplit, lexemes_name (List.cons_ne_nil c _) hchars hlong]
        exact .name hnil (List.cons_ne_nil c _) hchars hlong
          (ih (Nat.le_trans (List.dropWhile_suffix isNameChar).length_le hn))
      · have hblank : isBlank c = false := by simpa using hblank
        have hname : isNameChar c = false := by simpa using hname
        rw [lexemes_mark hblank hname hquote]
        exact .mark hnil hblank hname hquote (ih hn)

/-- **Cutting is told by the texts of lexemes.** -/
theorem lexemes_eq_iff {ls : List Lexeme} : lexemes t = ls ↔ Renders ls t := by
  constructor
  · rintro rfl
    exact renders_lexemes _ (Nat.le_refl _)
  · exact Renders.lexemes_eq

end TerseStyle.Chain

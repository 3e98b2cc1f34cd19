/-
Character references in the text between the quotes of an attribute. A reference is an ampersand, a body and a semicolon,
and stands for one character, if its body is a name of a table, or the number of a character in decimal or hexadecimal
digits; any other ampersand stands for itself, and so does a backslash. The value of the attribute is the text with what
its references stand for.

Results:
- `AttributeValue.unique`, `exists_attributeValue`: every text has one value.
- `AttributeValue.eq_iff`: it is the text itself where that has no reference.
- `AttributeValue.lineFeeds_trim_eq_iff`: the same without the blanks at both ends, in a template.
-/
import Mathlib.Order.Basic
import TerseStyle.Proofs.Text.Basic
import TerseStyle.Script.Print
import TerseStyle.Script.Token

namespace TerseStyle.Script

/-- the body of a reference and the character that it stands for; `named` is the table of names -/
inductive References (named : Text → Option Char) : Text → Char → Prop
  | name {body : Text} {c : Char} : body.head? ≠ some '#' → named body = some c → References named body c
  | decimal {digits : Text} {c : Char} : digits ≠ [] → digits.all Char.isDigit = true →
      c.toNat = Nat.ofDigitChars 10 digits 0 → References named ('#' :: digits) c
  | hexadecimal {digits : Text} {c : Char} : digits ≠ [] → digits.all isHexDigit = true →
      c.toNat = hexNumber digits → References named ('#' :: 'x' :: digits) c

/-- a text with a reference in front -/
def StartsReference (named : Text → Option Char) (t : Text) : Prop :=
  ∃ body rest c, t = '&' :: (body ++ ';' :: rest) ∧ ';' ∉ body ∧ References named body c

/-- a text with a reference somewhere -/
def HasReference (named : Text → Option Char) (t : Text) : Prop :=
  ∃ front rest, t = front ++ rest ∧ StartsReference named rest

/-- the text between the quotes of an attribute and its value -/
inductive AttributeValue (named : Text → Option Char) : Text → Text → Prop
  | nil : AttributeValue named [] []
  | reference {body rest v : Text} {c : Char} : ';' ∉ body → References named body c → AttributeValue named rest v →
      AttributeValue named ('&' :: (body ++ ';' :: rest)) (c :: v)
  | char {c : Char} {rest v : Text} : ¬ StartsReference named (c :: rest) → AttributeValue named rest v →
      AttributeValue named (c :: rest) (c :: v)

variable {named : Text → Option Char} {t v u body body' rest rest' : Text} {c d : Char}

/-! ## One value -/

theorem References.unique (h : References named body c) (h' : References named body d) : c = d := by
  have hx : Char.isDigit 'x' = false := rfl
  cases h with
  | name hhead hname =>
    cases h' with
    | name _ hname' => exact Option.some.inj (hname.symm.trans hname')
    | decimal => exact absurd rfl hhead
    | hexadecimal => exact absurd rfl hhead
  | decimal _ hdigits hnumber =>
    cases h' with
    | name hhead => exact absurd rfl hhead
    | decimal _ _ hnumber' => exact Char.toNat_inj.1 (hnumber.trans hnumber'.symm)
    | hexadecimal => simp [hx] at hdigits
  | hexadecimal _ _ hnumber =>
    cases h' with
    | name hhead => exact absurd rfl hhead
    | decimal _ hdigits => simp [hx] at hdigits
    | hexadecimal _ _ hnumber' => exact Char.toNat_inj.1 (hnumber.trans hnumber'.symm)

/-- the body of a reference ends at its first semicolon -/
theorem body_unique (h : ';' ∉ body) (h' : ';' ∉ body') (heq : body ++ ';' :: rest = body' ++ ';' :: rest') :
    body = body' ∧ rest = rest' := by
  induction body generalizing body' with
  | nil =>
    cases body' with
    | nil => exact ⟨rfl, (List.cons.inj heq).2⟩
    | cons d body' =>
      obtain ⟨rfl, -⟩ := List.cons.inj heq
      exact absurd List.mem_cons_self h'
  | cons c body ih =>
    cases body' with
    | nil =>
      obtain ⟨rfl, -⟩ := List.cons.inj heq
      exact absurd List.mem_cons_self h
    | cons d body' =>
      obtain ⟨rfl, htail⟩ := List.cons.inj heq
      rw [List.mem_cons, not_or] at h h'
      obtain ⟨rfl, rfl⟩ := ih h.2 h'.2 htail
      exact ⟨rfl, rfl⟩

theorem AttributeValue.unique (h : AttributeValue named t v) (h' : AttributeValue named t u) : v = u := by
  induction h generalizing u with
  | nil =>
    cases h'
    rfl
  | @reference body rest v c hbody hc _ ih =>
    generalize ht : '&' :: (body ++ ';' :: rest) = t at h'
    cases h' with
    | nil => cases ht
    | reference hbody' hc' h' =>
      obtain ⟨rfl, rfl⟩ := body_unique hbody hbody' (List.cons.inj ht).2
      rw [hc.unique hc', ih h']
    | char hnone => exact absurd ⟨body, rest, c, ht.symm, hbody, hc⟩ hnone
  | @char c rest v hnone _ ih =>
    generalize ht : c :: rest = t at h'
    cases h' with
    | nil => cases ht
    | reference hbody hc => exact absurd ⟨_, _, _, ht, hbody, hc⟩ hnone
    | char _ h' =>
      obtain ⟨rfl, rfl⟩ := List.cons.inj ht
      rw [ih h']

theorem exists_attributeValue (named : Text → Option Char) (t : Text) : ∃ v, AttributeValue named t v := by
  -- behind a reference the text is shorter by more than one character
  induction hn : t.length using Nat.strongRecOn generalizing t with
  | ind n ih =>
    cases t with
    | nil => exact ⟨[], .nil⟩
    | cons c rest =>
      by_cases hstarts : StartsReference named (c :: rest)
      · obtain ⟨body, rest', d, heq, hbody, hd⟩ := hstarts
        rw [heq] at hn ⊢
        obtain ⟨v, hv⟩ := ih rest'.length (by simp at hn; omega) rest' rfl
        exact ⟨d :: v, .reference hbody hd hv⟩
      · obtain ⟨v, hv⟩ := ih rest.length (by simp [← hn]) rest rfl
        exact ⟨c :: v, .char hstarts hv⟩

/-! ## Texts without references -/

/-- the characters that a reference has around its body -/
def isReferenceMark (c : Char) : Bool := c = '&' || c = ';'

theorem hasReference_cons :
    HasReference named (c :: rest) ↔ StartsReference named (c :: rest) ∨ HasReference named rest := by
  constructor
  · rintro ⟨front, behind, heq, hstarts⟩
    cases front with
    | nil =>
      rw [List.nil_append] at heq
      exact .inl (heq ▸ hstarts)
    | cons d front => exact .inr ⟨front, behind, (List.cons.inj heq).2, hstarts⟩
  · rintro (h | ⟨front, behind, rfl, hstarts⟩)
    · exact ⟨[], _, rfl, h⟩
    · exact ⟨c :: front, behind, rfl, hstarts⟩

/-- a value is its text, or has fewer marks, since a reference has two of them and stands for one character -/
theorem AttributeValue.eq_or_lt (h : AttributeValue named t v) :
    v = t ∧ ¬ HasReference named t ∨ HasReference named t ∧ v.countP isReferenceMark < t.countP isReferenceMark := by
  induction h with
  | nil =>
    refine .inl ⟨rfl, ?_⟩
    rintro ⟨front, behind, heq, body, rest, c, rfl, -⟩
    simp at heq
  | @reference body rest v c hbody hc _ ih =>
    have hle : v.countP isReferenceMark ≤ rest.countP isReferenceMark := by
      rcases ih with ⟨rfl, -⟩ | ⟨-, hlt⟩
      · exact Nat.le_refl _
      · exact Nat.le_of_lt hlt
    have hone : (c :: v).countP isReferenceMark ≤ v.countP isReferenceMark + 1 := by
      rw [List.countP_cons]
      split <;> omega
    have htwo : ('&' :: (body ++ ';' :: rest)).countP isReferenceMark =
        body.countP isReferenceMark + rest.countP isReferenceMark + 2 := by
      simp [isReferenceMark, List.countP_append]
      omega
    refine .inr ⟨hasReference_cons.2 (.inl ⟨body, rest, c, rfl, hbody, hc⟩), ?_⟩
    omega
  | @char c rest v hnone _ ih =>
    rcases ih with ⟨rfl, hrest⟩ | ⟨hrest, hlt⟩
    · exact .inl ⟨rfl, fun h => (hasReference_cons.1 h).elim hnone hrest⟩
    · refine .inr ⟨hasReference_cons.2 (.inr hrest), ?_⟩
      rw [List.countP_cons, List.countP_cons]
      omega

/-- **The value of a text** is the text itself where that has no reference. -/
theorem AttributeValue.eq_iff (h : AttributeValue named t v) : v = t ↔ ¬ HasReference named t := by
  rcases h.eq_or_lt with ⟨heq, hnone⟩ | ⟨hsome, hlt⟩
  · exact iff_of_true heq hnone
  · refine iff_of_false ?_ (not_not_intro hsome)
    rintro rfl
    exact Nat.lt_irrefl _ hlt

/-! ## In a template -/

theorem not_mem_lineFeeds (t : Text) : '\r' ∉ lineFeeds t := by
  induction t using lineFeeds.induct with
  | case1 => exact List.not_mem_nil
  | case2 t ih => simpa [lineFeeds] using ih
  | case3 c t hnot ih =>
    rw [lineFeeds]
    · rw [List.mem_cons, not_or]
      refine ⟨?_, ih⟩
      split
      · decide
      · rename_i hreturn
        exact Ne.symm hreturn
    · exact hnot

theorem lineFeeds_of_not_mem (h : '\r' ∉ t) : lineFeeds t = t := by
  induction t using lineFeeds.induct with
  | case1 => rfl
  | case2 t ih => exact absurd List.mem_cons_self h
  | case3 c t hnot ih =>
    rw [List.mem_cons, not_or] at h
    rw [lineFeeds]
    · rw [if_neg (Ne.symm h.1), ih h.2]
    · exact hnot

/-- a line end does not reach into a text that starts with something else than a line feed -/
theorem lineFeeds_append (s : Text) (h : t.head? ≠ some '\n') : lineFeeds (s ++ t) = lineFeeds s ++ lineFeeds t := by
  induction s using lineFeeds.induct with
  | case1 => rfl
  | case2 s ih => simp [lineFeeds, ih]
  | case3 c s hnot ih =>
    have hnot' : ∀ rest, c = '\r' → s ++ t = '\n' :: rest → False := by
      intro rest hc heq
      cases s with
      | nil => exact h (by rw [← List.nil_append t, heq]; rfl)
      | cons d s =>
        obtain ⟨rfl, -⟩ := List.cons.inj heq
        exact hnot s hc rfl
    rw [List.cons_append, lineFeeds, ih, lineFeeds]
    · rfl
    · exact hnot
    · exact hnot'

variable {p : Char → Bool}

theorem countP_lineFeeds (hfeed : p '\n' = false) (hreturn : p '\r' = false) (t : Text) :
    (lineFeeds t).countP p = t.countP p := by
  induction t using lineFeeds.induct with
  | case1 => rfl
  | case2 t ih => simp [lineFeeds, hfeed, hreturn, ih]
  | case3 c t hnot ih =>
    rw [lineFeeds]
    · rw [List.countP_cons, List.countP_cons, ih]
      split
      · rename_i hc
        rw [hc, hfeed, hreturn]
      · rfl
    · exact hnot

theorem countP_trim (hblank : ∀ c, isBlank c = true → p c = false) (t : Text) :
    (Text.trim t).countP p = t.countP p := by
  have hnone {t : Text} (ht : Text.isBlankOnly t = true) : t.countP p = 0 := by
    rw [List.countP_eq_zero]
    intro c hc
    rw [hblank c (List.all_eq_true.1 ht c hc)]
    exact Bool.false_ne_true
  obtain ⟨lead, trail, ht, hlead, htrail⟩ := Text.exists_trim t
  have hcount := congrArg (List.countP p) ht
  rw [List.countP_append, List.countP_append, hnone hlead, hnone htrail] at hcount
  omega

theorem isReferenceMark_of_isBlank (c : Char) (h : isBlank c = true) : isReferenceMark c = false := by
  have hmarks : isBlank '&' = false ∧ isBlank ';' = false := by decide
  rw [← Bool.not_eq_true]
  intro hmark
  simp only [isReferenceMark, Bool.or_eq_true, decide_eq_true_eq] at hmark
  rcases hmark with rfl | rfl
  · rw [hmarks.1] at h
    cases h
  · rw [hmarks.2] at h
    cases h

/-- **Trimmed text in a template** is what its value is without the blanks at both ends where the text has no reference,
and no carriage return but at its ends. -/
theorem AttributeValue.lineFeeds_trim_eq_iff (h : AttributeValue named t v) :
    lineFeeds (Text.trim t) = Text.trim v ↔ ¬ HasReference named t ∧ '\r' ∉ Text.trim t := by
  constructor
  · intro heq
    -- neither line feeds nor trimming change the number of marks
    have hmarks := congrArg (List.countP isReferenceMark) heq
    rw [countP_lineFeeds rfl rfl, countP_trim isReferenceMark_of_isBlank, countP_trim isReferenceMark_of_isBlank]
      at hmarks
    rcases h.eq_or_lt with ⟨rfl, hnone⟩ | ⟨-, hlt⟩
    · refine ⟨hnone, ?_⟩
      rw [← heq]
      exact not_mem_lineFeeds _
    · omega
  · rintro ⟨hnone, hreturn⟩
    rw [h.eq_iff.2 hnone, lineFeeds_of_not_mem hreturn]

end TerseStyle.Script

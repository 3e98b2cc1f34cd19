/-
Numbers as arguments. The numerals are given by a grammar: an infinity with an optional sign, the digits of a radix behind
its mark, and decimal numbers with optional sign and exponent. Whether an argument is a number can also be found by checks
one after the other, each of which sees little of the text: one word, the first two bytes, the characters that occur, and
a reader of floats that takes other words as well. They come to the same.

Results:
- `isDecimal_iff`, `isNumber_iff`: decimal numbers, and all numbers, are those of the grammar.
- `passesChecks_iff`: so are the texts that pass the checks, with any reader of floats that has its usual grammar.
- `classify_numeral_iff`: which arguments are numeric constants, and their value.
-/
import TerseStyle.Proofs.Chain.Constants

namespace TerseStyle.Chain

/-! ## The grammar -/

/-- an optional sign -/
def IsSign (t : Text) : Prop := t = [] ∨ t = ['+'] ∨ t = ['-']

/-- one or more decimal digits -/
def IsDigits (t : Text) : Prop := t ≠ [] ∧ ∀ c ∈ t, c.isDigit = true

/-- the digits of a decimal number, with a point behind, among or in front of them -/
inductive Significand : Text → Prop
  | whole {digits : Text} : IsDigits digits → Significand digits
  | pointed {digits fraction : Text} : IsDigits digits → (∀ c ∈ fraction, c.isDigit = true) →
      Significand (digits ++ '.' :: fraction)
  | fraction {fraction : Text} : IsDigits fraction → Significand ('.' :: fraction)

/-- an optional exponent, with one or more digits behind its mark and an optional sign -/
inductive Exponent : Text → Prop
  | none : Exponent []
  | some {mark : Char} {sign digits : Text} : mark = 'e' ∨ mark = 'E' → IsSign sign → IsDigits digits →
      Exponent (mark :: (sign ++ digits))

/-- a decimal number -/
def DecimalNumeral (t : Text) : Prop :=
  ∃ sign significand exponent, t = sign ++ (significand ++ exponent) ∧ IsSign sign ∧ Significand significand ∧
    Exponent exponent

/-- the marks of a radix behind a zero, and its digits -/
def radixForms : List (Text × Text) :=
  [("xX".toList, "0123456789abcdefABCDEF".toList), ("oO".toList, "01234567".toList), ("bB".toList, "01".toList)]

/-- a number -/
inductive Numeral : Text → Prop
  | infinity {sign : Text} : IsSign sign → Numeral (sign ++ "Infinity".toList)
  | radix {form : Text × Text} {mark : Char} {digits : Text} : form ∈ radixForms → mark ∈ form.1 → digits ≠ [] →
      (∀ c ∈ digits, c ∈ form.2) → Numeral ('0' :: mark :: digits)
  | decimal {t : Text} : DecimalNumeral t → Numeral t

/-! ## Signs and digits -/

variable {t sign digits : Text}

theorem exists_dropSign (t : Text) : ∃ sign, IsSign sign ∧ t = sign ++ dropSign t := by
  unfold dropSign
  split
  · exact ⟨['+'], .inr (.inl rfl), rfl⟩
  · exact ⟨['-'], .inr (.inr rfl), rfl⟩
  · exact ⟨[], .inl rfl, rfl⟩

theorem dropSign_of_head (h : ∀ c ∈ t.head?, c ≠ '+' ∧ c ≠ '-') : dropSign t = t := by
  unfold dropSign
  split
  · exact absurd rfl (h '+' rfl).1
  · exact absurd rfl (h '-' rfl).2
  · rfl

theorem dropSign_signed (hsign : IsSign sign) (h : ∀ c ∈ t.head?, c ≠ '+' ∧ c ≠ '-') : dropSign (sign ++ t) = t := by
  rcases hsign with rfl | rfl | rfl
  · exact dropSign_of_head h
  · rfl
  · rfl

theorem ne_sign_of_isDigit {c : Char} (h : c.isDigit = true) : c ≠ '+' ∧ c ≠ '-' := by
  constructor
  · rintro rfl
    cases h
  · rintro rfl
    cases h

theorem isDigits_iff : IsDigits t ↔ (!t.isEmpty && t.all Char.isDigit) = true := by
  simp [IsDigits]

theorem IsDigits.head (h : IsDigits digits) (t : Text) : ∀ c ∈ (digits ++ t).head?, c.isDigit = true := by
  obtain ⟨c, rest, rfl⟩ := List.exists_cons_of_ne_nil h.1
  simpa using h.2 c List.mem_cons_self

/-- digits end where none follows -/
theorem takeWhile_digits (h : ∀ c ∈ digits, c.isDigit = true) (ht : ∀ c ∈ t.head?, c.isDigit = false) :
    (digits ++ t).takeWhile Char.isDigit = digits ∧ (digits ++ t).dropWhile Char.isDigit = t := by
  have hnone : t.takeWhile Char.isDigit = [] ∧ t.dropWhile Char.isDigit = t := by
    cases t with
    | nil => exact ⟨rfl, rfl⟩
    | cons c rest => simp [ht c rfl]
  rw [List.takeWhile_append_of_pos h, List.dropWhile_append_of_pos h, hnone.1, hnone.2, List.append_nil]
  exact ⟨rfl, rfl⟩

/-! ## Decimal numbers -/

theorem isExponent_iff : isExponent t = true ↔ Exponent t := by
  constructor
  · intro h
    cases t with
    | nil => exact .none
    | cons c rest =>
      simp only [isExponent, Bool.and_eq_true, Bool.or_eq_true, decide_eq_true_eq] at h
      obtain ⟨hmark, hdigits⟩ := h
      obtain ⟨sign, hsign, hrest⟩ := exists_dropSign rest
      rw [hrest]
      exact .some hmark hsign (isDigits_iff.2 (by simpa using hdigits))
  · intro h
    cases h with
    | none => rfl
    | @some mark sign digits hmark hsign hdigits =>
      have hdrop : dropSign (sign ++ digits) = digits := by
        refine dropSign_signed hsign fun c hc => ne_sign_of_isDigit (hdigits.head [] c ?_)
        rwa [List.append_nil]
      have hall := isDigits_iff.1 hdigits
      simp only [isExponent, hdrop]
      rw [hall]
      rcases hmark with rfl | rfl <;> rfl

theorem Exponent.head (h : Exponent t) : ∀ c ∈ t.head?, c.isDigit = false ∧ c ≠ '.' := by
  cases h with
  | none => simp
  | some hmark => rcases hmark with rfl | rfl <;> simp

theorem Significand.head (h : Significand t) (exponent : Text) :
    ∃ c, (t ++ exponent).head? = some c ∧ (c.isDigit = true ∨ c = '.') := by
  have hdigits {digits : Text} (hdigits : IsDigits digits) (rest : Text) :
      ∃ c, (digits ++ rest).head? = some c ∧ (c.isDigit = true ∨ c = '.') := by
    obtain ⟨c, more, rfl⟩ := List.exists_cons_of_ne_nil hdigits.1
    exact ⟨c, rfl, .inl (hdigits.2 c List.mem_cons_self)⟩
  cases h with
  | whole h => exact hdigits h exponent
  | pointed h =>
    rw [List.append_assoc]
    exact hdigits h _
  | fraction => exact ⟨'.', rfl, .inr rfl⟩

/-- the digits in front of a text, and what follows them -/
theorem digits_in_front (t : Text) :
    (∀ c ∈ t.takeWhile Char.isDigit, c.isDigit = true) ∧
      t = t.takeWhile Char.isDigit ++ t.dropWhile Char.isDigit :=
  ⟨List.all_eq_true.1 List.all_takeWhile, List.takeWhile_append_dropWhile.symm⟩

theorem decimalNumeral_of_isDecimal (h : isDecimal t = true) : DecimalNumeral t := by
  obtain ⟨sign, hsign, ht⟩ := exists_dropSign t
  obtain ⟨hwhole, hsplit⟩ := digits_in_front (dropSign t)
  unfold isDecimal at h
  simp only at h
  split at h
  · rename_i rest hrest
    obtain ⟨hfraction, hparts⟩ := digits_in_front rest
    rw [Bool.and_eq_true, isExponent_iff] at h
    obtain ⟨hsome, hexponent⟩ := h
    by_cases hempty : (dropSign t).takeWhile Char.isDigit = []
    · have hne : rest.takeWhile Char.isDigit ≠ [] := by
        intro hnone
        simp [hempty, hnone] at hsome
      refine ⟨sign, '.' :: rest.takeWhile Char.isDigit, _, ?_, hsign, .fraction ⟨hne, hfraction⟩, hexponent⟩
      rw [hempty, List.nil_append, hrest] at hsplit
      rw [List.cons_append, ← hparts, ← hsplit]
      exact ht
    · refine ⟨sign, _, _, ?_, hsign, .pointed ⟨hempty, hwhole⟩ hfraction, hexponent⟩
      rw [List.append_assoc, List.cons_append, ← hparts, ← hrest, ← hsplit]
      exact ht
  · rw [Bool.and_eq_true, isExponent_iff] at h
    obtain ⟨hsome, hexponent⟩ := h
    refine ⟨sign, _, _, ?_, hsign, .whole ⟨by simpa using hsome, hwhole⟩, hexponent⟩
    rw [← hsplit]
    exact ht

/-- without its sign a decimal number starts with a digit or a point -/
theorem DecimalNumeral.dropSign (h : DecimalNumeral t) :
    ∃ significand exponent, dropSign t = significand ++ exponent ∧ Significand significand ∧ Exponent exponent := by
  obtain ⟨sign, significand, exponent, rfl, hsign, hsignificand, hexponent⟩ := h
  refine ⟨significand, exponent, dropSign_signed hsign fun d hd => ?_, hsignificand, hexponent⟩
  obtain ⟨c, hhead, hc⟩ := hsignificand.head exponent
  rw [hhead, Option.mem_some_iff] at hd
  subst hd
  rcases hc with hc | rfl
  · exact ne_sign_of_isDigit hc
  · decide

theorem isDecimal_of_decimalNumeral (h : DecimalNumeral t) : isDecimal t = true := by
  obtain ⟨significand, exponent, hdrop, hsignificand, hexponent⟩ := h.dropSign
  have hpower := isExponent_iff.2 hexponent
  have hbehind : ∀ c ∈ exponent.head?, c.isDigit = false := fun c hc => (hexponent.head c hc).1
  unfold isDecimal
  rw [hdrop]
  cases hsignificand with
  | whole hdigits =>
    obtain ⟨htake, hleft⟩ := takeWhile_digits hdigits.2 hbehind
    simp only [htake, hleft]
    split
    · exact absurd rfl (hexponent.head '.' rfl).2
    · simp [hdigits.1, hpower]
  | @pointed digits fraction hdigits hfraction =>
    have hpoint : ∀ c ∈ ('.' :: (fraction ++ exponent)).head?, c.isDigit = false := by simp
    obtain ⟨htake, hleft⟩ := takeWhile_digits hdigits.2 hpoint
    obtain ⟨-, hrest⟩ := takeWhile_digits hfraction hbehind
    rw [List.append_assoc, List.cons_append]
    simp [htake, hleft, hrest, hdigits.1, hpower]
  | @fraction fraction hfraction =>
    obtain ⟨htake, hrest⟩ := takeWhile_digits hfraction.2 hbehind
    have hlength := List.length_pos_of_ne_nil hfraction.1
    simp [htake, hrest, hlength, hpower]

/-- **Decimal numbers** are those of the grammar. -/
theorem isDecimal_iff : isDecimal t = true ↔ DecimalNumeral t :=
  ⟨decimalNumeral_of_isDecimal, isDecimal_of_decimalNumeral⟩

/-- the characters of decimal numbers -/
def isDecimalPart (c : Char) : Bool := c.isDigit || c = '.' || c = '-' || c = '+' || c = 'e' || c = 'E'

theorem IsSign.parts (h : IsSign sign) : ∀ c ∈ sign, isDecimalPart c = true := by
  rcases h with rfl | rfl | rfl <;> simp [isDecimalPart]

theorem isDecimalPart_of_isDigit {c : Char} (h : c.isDigit = true) : isDecimalPart c = true := by
  simp [isDecimalPart, h]

theorem DecimalNumeral.parts (h : DecimalNumeral t) : ∀ c ∈ t, isDecimalPart c = true := by
  obtain ⟨sign, significand, exponent, rfl, hsign, hsignificand, hexponent⟩ := h
  have hdigits {digits : Text} (h : ∀ c ∈ digits, c.isDigit = true) : ∀ c ∈ digits, isDecimalPart c = true :=
    fun c hc => isDecimalPart_of_isDigit (h c hc)
  have hpoint : isDecimalPart '.' = true := rfl
  rw [List.forall_mem_append, List.forall_mem_append]
  refine ⟨hsign.parts, ?_, ?_⟩
  · cases hsignificand with
    | whole h => exact hdigits h.2
    | pointed h h' =>
      rw [List.forall_mem_append, List.forall_mem_cons]
      exact ⟨hdigits h.2, hpoint, hdigits h'⟩
    | fraction h => exact List.forall_mem_cons.2 ⟨hpoint, hdigits h.2⟩
  · cases hexponent with
    | none => simp
    | some hmark hsign' h =>
      rw [List.forall_mem_cons, List.forall_mem_append]
      refine ⟨?_, hsign'.parts, hdigits h.2⟩
      rcases hmark with rfl | rfl <;> rfl

/-! ## Radix forms -/

variable {mark : Char} {radix : Nat}

/-- the digits of a radix are listed in its form -/
theorem isRadixDigit_iff :
    ∀ p ∈ radixForms.zip [16, 8, 2], ∀ c : Char, isRadixDigit p.2 c = true ↔ c ∈ p.1.2 := by
  -- all of them are ASCII characters, of which there are few enough to look at each
  have hall : ∀ p ∈ radixForms.zip [16, 8, 2],
      (∀ n < 128, isRadixDigit p.2 (Char.ofNat n) = true ↔ Char.ofNat n ∈ p.1.2) ∧
        p.1.2.all (fun c => c.toNat < 128) = true := by
    decide +kernel
  have hascii (radix : Nat) (c : Char) (h : isRadixDigit radix c = true) : c.toNat < 128 := by
    have below (d : Char) (hd : d.toNat < 128) (hle : c ≤ d) : c.toNat < 128 :=
      Nat.lt_of_le_of_lt (UInt32.le_iff_toNat_le.1 (Char.le_def.1 hle)) hd
    unfold isRadixDigit at h
    split at h
    · rename_i hdigit
      simp only [Char.isDigit, Bool.and_eq_true, decide_eq_true_eq] at hdigit
      exact below '9' (by decide) (Char.le_def.2 hdigit.2)
    · simp only [Bool.and_eq_true, Bool.or_eq_true, decide_eq_true_eq] at h
      obtain ⟨-, ⟨-, hle⟩ | ⟨-, hle⟩⟩ := h
      · exact below 'f' (by decide) hle
      · exact below 'F' (by decide) hle
  intro p hp c
  obtain ⟨hdigits, hlisted⟩ := hall p hp
  have h := hdigits c.toNat
  rw [Char.ofNat_toNat] at h
  exact ⟨fun hc => (h (hascii p.2 c hc)).1 hc, fun hc => (h (of_decide_eq_true (List.all_eq_true.1 hlisted c hc))).2 hc⟩

/-- the marks of a radix are those of its form -/
theorem radixOf_eq_some_iff : radixOf mark = some radix ↔ ∃ p ∈ radixForms.zip [16, 8, 2], mark ∈ p.1.1 ∧ p.2 = radix := by
  have hforms : (∃ p ∈ radixForms.zip [16, 8, 2], mark ∈ p.1.1 ∧ p.2 = radix) ↔
      (mark = 'x' ∨ mark = 'X') ∧ 16 = radix ∨ (mark = 'o' ∨ mark = 'O') ∧ 8 = radix ∨
        (mark = 'b' ∨ mark = 'B') ∧ 2 = radix := by
    simp [radixForms]
  rw [hforms]
  unfold radixOf
  grind

/-- a mark belongs to one radix and to no decimal number, and is one byte -/
theorem radixForms_marks : ∀ form ∈ radixForms, ∀ mark ∈ form.1,
    (radixOf mark).isSome ∧ (∀ form' ∈ radixForms, mark ∈ form'.1 → form' = form) ∧ isDecimalPart mark = false ∧
      mark.utf8Size = 1 := by
  intro form hform mark hmark
  have hmarks : (form = radixForms[0] ∧ (mark = 'x' ∨ mark = 'X')) ∨ (form = radixForms[1] ∧ (mark = 'o' ∨ mark = 'O')) ∨
      (form = radixForms[2] ∧ (mark = 'b' ∨ mark = 'B')) := by
    simp only [radixForms, List.mem_cons, List.not_mem_nil, or_false] at hform
    rcases hform with rfl | rfl | rfl <;> simpa [radixForms] using hmark
  rcases hmarks with ⟨rfl, rfl | rfl⟩ | ⟨rfl, rfl | rfl⟩ | ⟨rfl, rfl | rfl⟩ <;> decide

/-- a text with the mark of a radix behind a zero -/
theorem numeral_radix_iff (h : radixOf mark = some radix) :
    Numeral ('0' :: mark :: digits) ↔ (!digits.isEmpty && digits.all (isRadixDigit radix)) = true := by
  obtain ⟨⟨form, _⟩, hp, hmark, rfl⟩ := radixOf_eq_some_iff.1 h
  have hdigit := isRadixDigit_iff _ hp
  simp only at hdigit
  simp only [Bool.and_eq_true, Bool.not_eq_true', List.isEmpty_eq_false_iff, List.all_eq_true, hdigit]
  constructor
  · obtain ⟨-, honly, hpart, -⟩ := radixForms_marks form (List.of_mem_zip hp).1 mark hmark
    generalize ht : '0' :: mark :: digits = t
    intro hnumeral
    cases hnumeral with
    | infinity hsign => rcases hsign with rfl | rfl | rfl <;> simp at ht
    | @radix form' _ _ hform' hmark' hsome hall =>
      simp only [List.cons.injEq, true_and] at ht
      obtain ⟨rfl, rfl⟩ := ht
      rw [honly form' hform' hmark'] at hall
      exact ⟨hsome, hall⟩
    | decimal hdecimal =>
      have h := hdecimal.parts mark (by simp [← ht])
      rw [hpart] at h
      cases h
  · rintro ⟨hsome, hall⟩
    exact .radix (List.of_mem_zip hp).1 hmark hsome hall

/-! ## Numbers -/

/-- **Numbers** are those of the grammar, without the blanks around them. -/
theorem isNumber_iff {raw : Text} : isNumber raw = true ↔ Numeral (Text.trim raw) := by
  unfold isNumber
  generalize Text.trim raw = t
  simp only
  by_cases hinfinity : dropSign t = "Infinity".toList
  · rw [if_pos hinfinity]
    obtain ⟨sign, hsign, ht⟩ := exists_dropSign t
    rw [ht, hinfinity]
    exact ⟨fun _ => .infinity hsign, fun _ => rfl⟩
  · rw [if_neg hinfinity]
    have hword {sign : Text} (hsign : IsSign sign) : t ≠ sign ++ "Infinity".toList := by
      rintro rfl
      exact hinfinity (dropSign_signed hsign (by simp))
    have hdecimal (hradix : ∀ mark digits, t = '0' :: mark :: digits → radixOf mark = none) :
        isDecimal t = true ↔ Numeral t := by
      rw [isDecimal_iff]
      refine ⟨.decimal, fun h => ?_⟩
      generalize ht : t = u at h
      cases h with
      | infinity hsign => exact absurd ht (hword hsign)
      | @radix form mark digits hform hmark =>
        have hsome := (radixForms_marks form hform mark hmark).1
        rw [hradix mark digits ht] at hsome
        cases hsome
      | decimal h => exact h
    split
    · rename_i mark digits
      split
      · rename_i radix hradix
        exact (numeral_radix_iff hradix).symm
      · rename_i hradix
        refine hdecimal fun mark' digits' h => ?_
        simp only [List.cons.injEq, true_and] at h
        rw [← h.1]
        exact hradix
    · rename_i hother
      exact hdecimal fun mark digits h => absurd h (hother mark digits)

/-! ## Checks one after the other -/

/-- the characters in the first `n` bytes and those behind them, if no character stands on both sides -/
def splitBytes? : Nat → Text → Option (Text × Text)
  | 0, t => some ([], t)
  | _ + 1, [] => none
  | n + 1, c :: rest =>
    if c.utf8Size ≤ n + 1 then (splitBytes? (n + 1 - c.utf8Size) rest).map fun p => (c :: p.1, p.2) else none

/-- the radix that the first two bytes announce, and what stands behind them -/
def announced? (t : Text) : Option (Nat × Text) :=
  match splitBytes? 2 t with
  | some (['0', mark], digits) => (radixOf mark).map (·, digits)
  | _ => none

/-- the checks for a number; `readsFloat` tells which texts a reader of floats takes -/
def passesChecks (readsFloat : Text → Bool) (raw : Text) : Bool :=
  let t := Text.trim raw
  if t.isEmpty then false
  else if dropSign t = "Infinity".toList then true
  else
    match announced? t with
    | some (radix, digits) => !digits.isEmpty && digits.all (isRadixDigit radix)
    | none => t.all isDecimalPart && readsFloat t

/-- the words that a reader of floats takes besides decimal numbers, in lower case -/
def floatWords : List Text := ["inf".toList, "infinity".toList, "nan".toList]

/-- the texts that a reader of floats takes: decimal numbers, and some words with an optional sign, in any case -/
inductive FloatText : Text → Prop
  | decimal {t : Text} : DecimalNumeral t → FloatText t
  | word {sign word : Text} : IsSign sign → word.map Char.toLower ∈ floatWords → FloatText (sign ++ word)

theorem splitBytes?_eq_some {n : Nat} {front rest : Text} (h : splitBytes? n t = some (front, rest)) :
    t = front ++ rest := by
  induction t generalizing n front with
  | nil =>
    cases n with
    | zero => simpa [splitBytes?] using h
    | succ n => cases h
  | cons c t ih =>
    cases n with
    | zero =>
      obtain ⟨rfl, rfl⟩ : [] = front ∧ c :: t = rest := by simpa [splitBytes?] using h
      rfl
    | succ n =>
      unfold splitBytes? at h
      split at h
      · obtain ⟨⟨front', rest'⟩, hsplit, heq⟩ := Option.map_eq_some_iff.1 h
        obtain ⟨rfl, rfl⟩ : c :: front' = front ∧ rest' = rest := by simpa using heq
        rw [List.cons_append, ← ih hsplit]
      · cases h

/-- a reader of floats, which looks for a decimal number first and for a word then -/
def readsFloatText (t : Text) : Bool := isDecimal t || floatWords.contains ((dropSign t).map Char.toLower)

/-- the reader has the usual grammar -/
theorem readsFloatText_iff (t : Text) : readsFloatText t = true ↔ FloatText t := by
  simp only [readsFloatText, Bool.or_eq_true, List.contains_eq_mem, decide_eq_true_eq]
  constructor
  · rintro (h | h)
    · exact .decimal (isDecimal_iff.1 h)
    · obtain ⟨sign, hsign, ht⟩ := exists_dropSign t
      rw [ht]
      exact .word hsign h
  · rintro (h | ⟨hsign, hword⟩)
    · exact .inl (isDecimal_iff.2 h)
    · rename_i sign word
      have hletter : ∀ w ∈ floatWords, ∀ c ∈ w.head?, c ≠ '+' ∧ c ≠ '-' := by simp [floatWords]
      have hhead : ∀ c ∈ word.head?, c ≠ '+' ∧ c ≠ '-' := by
        intro c hc
        have h := hletter _ hword c.toLower (by simp [Option.mem_def.1 hc])
        constructor
        · rintro rfl
          exact h.1 rfl
        · rintro rfl
          exact h.2 rfl
      rw [dropSign_signed hsign hhead]
      exact .inr hword

theorem announced?_eq_some_iff :
    announced? t = some (radix, digits) ↔ ∃ mark, t = '0' :: mark :: digits ∧ radixOf mark = some radix := by
  constructor
  · intro h
    unfold announced? at h
    split at h
    · rename_i mark digits' hsplit
      obtain ⟨radix', hradix, heq⟩ := Option.map_eq_some_iff.1 h
      obtain ⟨rfl, rfl⟩ : radix' = radix ∧ digits' = digits := by simpa using heq
      exact ⟨mark, splitBytes?_eq_some hsplit, hradix⟩
    · cases h
  · rintro ⟨mark, rfl, hradix⟩
    obtain ⟨p, hp, hmark, -⟩ := radixOf_eq_some_iff.1 hradix
    have hsize : mark.utf8Size = 1 := (radixForms_marks p.1 (List.of_mem_zip hp).1 mark hmark).2.2.2
    have hzero : '0'.utf8Size = 1 := rfl
    simp [announced?, splitBytes?, hsize, hzero, hradix]

/-- the letter that all words have occurs in no decimal number -/
theorem toLower_ne_n {c : Char} (h : isDecimalPart c = true) : c.toLower ≠ 'n' := by
  simp only [isDecimalPart, Bool.or_eq_true, decide_eq_true_eq] at h
  rcases h with ((((hdigit | rfl) | rfl) | rfl) | rfl) | rfl
  · have hlow : c.toLower = c := by
      unfold Char.toLower
      rw [dif_neg]
      simp only [Char.isDigit, Bool.and_eq_true, decide_eq_true_eq] at hdigit
      grind
    rw [hlow]
    rintro rfl
    cases hdigit
  all_goals decide

/-- what is made of the characters of decimal numbers is read as a float where it is one of them -/
theorem floatText_iff_of_parts (h : ∀ c ∈ t, isDecimalPart c = true) : FloatText t ↔ DecimalNumeral t := by
  refine ⟨fun hfloat => ?_, .decimal⟩
  cases hfloat with
  | decimal h => exact h
  | @word sign word hsign hword =>
    have hn : ∀ w ∈ floatWords, 'n' ∈ w := by decide
    obtain ⟨c, hc, hlow⟩ := List.mem_map.1 (hn _ hword)
    exact absurd hlow (toLower_ne_n (h c (List.mem_append_right sign hc)))

/-- **Texts that pass the checks** are the numbers. -/
theorem passesChecks_iff {readsFloat : Text → Bool} (hfloat : ∀ t, readsFloat t = true ↔ FloatText t) (raw : Text) :
    passesChecks readsFloat raw = true ↔ Numeral (Text.trim raw) := by
  rw [← isNumber_iff]
  unfold passesChecks isNumber
  generalize Text.trim raw = t
  simp only
  have hdecimal : (t.all isDecimalPart && readsFloat t) = isDecimal t := by
    rw [Bool.eq_iff_iff, Bool.and_eq_true, List.all_eq_true, hfloat, isDecimal_iff]
    constructor
    · rintro ⟨hparts, h⟩
      exact (floatText_iff_of_parts hparts).1 h
    · exact fun h => ⟨h.parts, .decimal h⟩
  cases t with
  | nil => simp [dropSign, isDecimal]
  | cons c rest =>
    rw [List.isEmpty_cons, if_neg Bool.false_ne_true]
    by_cases hinfinity : dropSign (c :: rest) = "Infinity".toList
    · rw [if_pos hinfinity, if_pos hinfinity]
    · rw [if_neg hinfinity, if_neg hinfinity]
      cases hannounced : announced? (c :: rest) with
      | some p =>
        obtain ⟨mark, ht, hradix⟩ := announced?_eq_some_iff.1 hannounced
        rw [ht]
        simp only [hradix]
      | none =>
        simp only
        rw [hdecimal]
        split
        · rename_i mark digits ht
          cases hradix : radixOf mark with
          | none => rfl
          | some radix =>
            rw [announced?_eq_some_iff.2 ⟨mark, ht, hradix⟩] at hannounced
            cases hannounced
        · rfl

/-! ## Numeric constants -/

/-- **Numeric constants.** Whatever reader of floats is at hand, as long as it has its usual grammar, an argument passes
the checks exactly where it is a number. Its trimmed text is then the value of a constant, and an argument whose trimmed
text is the value of a constant is a number, for quotes around a text are part of it. -/
theorem classify_numeral_iff {readsFloat : Text → Bool} (hfloat : ∀ t, readsFloat t = true ↔ FloatText t)
    (raw : Text) :
    isNumber raw = passesChecks readsFloat raw ∧
      (Argument.classify raw = ⟨.constant, Text.trim raw, raw⟩ ↔ Numeral (Text.trim raw)) := by
  constructor
  · rw [Bool.eq_iff_iff, passesChecks_iff hfloat, isNumber_iff]
  · rw [← isNumber_iff]
    unfold Argument.classify
    cases hnumber : isNumber raw with
    | true => simp
    | false =>
      refine iff_of_false (fun h => ?_) Bool.false_ne_true
      rw [if_neg Bool.false_ne_true] at h
      split at h
      · rename_i body hbody
        have hvalue : body = Text.trim raw := congrArg Argument.value h
        rw [trim_of_quoted hbody, unquote?_eq_some_iff.1 hbody] at hvalue
        have hlength := congrArg List.length hvalue
        simp only [List.length_cons, List.length_append, List.length_nil] at hlength
        omega
      · cases congrArg Argument.kind h

/-- a signed number with an exponent is a constant, and a word that is read as a float is none -/
theorem classify_numeral_exponent :
    (∀ t, readsFloatText t = true ↔ FloatText t) ∧
      Argument.classify " -1.5e+3\u00a0".toList = ⟨.constant, "-1.5e+3".toList, " -1.5e+3\u00a0".toList⟩ ∧
      Numeral "-1.5e+3".toList ∧
      readsFloatText "-inf".toList = true ∧ passesChecks readsFloatText "-inf".toList = false ∧
      ¬ Numeral "-inf".toList := by
  obtain ⟨-, hnumber⟩ := classify_numeral_iff readsFloatText_iff " -1.5e+3\u00a0".toList
  obtain ⟨hchecks, hword⟩ := classify_numeral_iff readsFloatText_iff "-inf".toList
  have htrim : Text.trim "-inf".toList = "-inf".toList := by decide
  rw [htrim] at hword
  refine ⟨readsFloatText_iff, by decide, hnumber.1 (by decide), by decide, ?_, fun h => ?_⟩
  · rw [← hchecks]
    decide
  · exact absurd (hword.2 h) (by decide)

end TerseStyle.Chain

/-
Facts about characters and texts: no blank is a letter or a number (`isAlphanumeric_of_isBlank`), trimming takes exactly
the blanks at both ends (`exists_trim`, `trim_of_blanks`) and does not see others around them (`trim_padded`), and the
digits of an index below the limit are read as that index (`toIndex?_ofNat`). The words of a text are the pieces between
its blanks (`words_eq_iff`).
-/
import Mathlib.Data.List.Basic
import TerseStyle.Text.Basic

namespace TerseStyle

/-! ## Blanks -/

/-- the code points of all blanks -/
def blankCodes : List Nat :=
  [9, 10, 11, 12, 13, 32, 0x85, 0xA0, 0x1680, 0x2000, 0x2001, 0x2002, 0x2003, 0x2004, 0x2005, 0x2006, 0x2007, 0x2008,
    0x2009, 0x200A, 0x2028, 0x2029, 0x202F, 0x205F, 0x3000]

theorem toNat_mem_of_isBlank {c : Char} (h : isBlank c = true) : c.toNat ∈ blankCodes := by
  simp only [isBlank, Bool.or_eq_true, Bool.and_eq_true, decide_eq_true_eq] at h
  simp only [blankCodes, List.mem_cons, List.not_mem_nil, or_false]
  omega

theorem isAlphanumeric_of_mem_blankCodes : ∀ n ∈ blankCodes, isAlphanumeric (Char.ofNat n) = false := by
  decide +kernel

/-- no blank is a letter or a number -/
theorem isAlphanumeric_of_isBlank {c : Char} (h : isBlank c = true) : isAlphanumeric c = false := by
  have := isAlphanumeric_of_mem_blankCodes _ (toNat_mem_of_isBlank h)
  rwa [Char.ofNat_toNat] at this

namespace Text

theorem isBlankOnly_append {s t : Text} : isBlankOnly (s ++ t) = (isBlankOnly s && isBlankOnly t) := by
  simp [isBlankOnly]

theorem isBlankOnly_cons {c : Char} {t : Text} : isBlankOnly (c :: t) = (isBlank c && isBlankOnly t) := rfl

theorem isBlankOnly_reverse {t : Text} : isBlankOnly t.reverse = isBlankOnly t := by
  simp [isBlankOnly]

/-! ## Trimming -/

theorem exists_trimLeft (t : Text) : ∃ lead, t = lead ++ trimLeft t ∧ isBlankOnly lead = true :=
  ⟨t.takeWhile isBlank, List.takeWhile_append_dropWhile.symm, List.all_takeWhile⟩

/-- trimming takes away blanks only -/
theorem exists_trim (t : Text) :
    ∃ lead trail, t = lead ++ (trim t ++ trail) ∧ isBlankOnly lead = true ∧ isBlankOnly trail = true := by
  obtain ⟨lead, hlead, hblank⟩ := exists_trimLeft t
  obtain ⟨back, hback, hblank'⟩ := exists_trimLeft (trimLeft t).reverse
  have hrev : trimLeft t = trim t ++ back.reverse :=
    calc trimLeft t = (trimLeft t).reverse.reverse := (List.reverse_reverse _).symm
      _ = (back ++ trimLeft (trimLeft t).reverse).reverse := by rw [← hback]
      _ = trim t ++ back.reverse := List.reverse_append
  have ht : t = lead ++ (trim t ++ back.reverse) := by
    rw [← hrev]
    exact hlead
  have hblank'' : isBlankOnly back.reverse = true := by
    rw [isBlankOnly_reverse]
    exact hblank'
  exact ⟨lead, back.reverse, ht, hblank, hblank''⟩

theorem trimLeft_of_blanks {lead core : Text} (hlead : isBlankOnly lead = true)
    (hcore : ∀ c ∈ core.head?, isBlank c = false) : trimLeft (lead ++ core) = core := by
  have hd : core.dropWhile isBlank = core := by
    cases core with
    | nil => rfl
    | cons c rest => rw [List.dropWhile_cons_of_neg]; simpa using hcore c rfl
  rw [trimLeft, List.dropWhile_append_of_pos (by simpa [isBlankOnly] using hlead), hd]

/-- trimming takes away all blanks at both ends -/
theorem trim_of_blanks {lead core trail : Text} (hlead : isBlankOnly lead = true) (htrail : isBlankOnly trail = true)
    (hhead : ∀ c ∈ core.head?, isBlank c = false) (hlast : ∀ c ∈ core.getLast?, isBlank c = false) :
    trim (lead ++ (core ++ trail)) = core := by
  cases core with
  | nil =>
    have hnil : trimLeft (lead ++ trail) = [] := by
      have hboth : isBlankOnly (lead ++ trail) = true := by rw [isBlankOnly_append, hlead, htrail]; rfl
      have : trimLeft ((lead ++ trail) ++ []) = [] := trimLeft_of_blanks hboth (by simp)
      rwa [List.append_nil] at this
    rw [List.nil_append, trim, hnil]; rfl
  | cons c rest =>
    have hfront : trimLeft (lead ++ ((c :: rest) ++ trail)) = (c :: rest) ++ trail :=
      trimLeft_of_blanks hlead (by simpa using hhead)
    have hback : trimLeft (trail.reverse ++ (c :: rest).reverse) = (c :: rest).reverse :=
      trimLeft_of_blanks (by rwa [isBlankOnly_reverse]) (by rw [List.head?_reverse]; exact hlast)
    rw [trim, hfront, List.reverse_append, hback, List.reverse_reverse]

theorem trimLeft_blanks {lead : Text} (hlead : isBlankOnly lead = true) (t : Text) :
    trimLeft (lead ++ t) = trimLeft t := by
  rw [trimLeft, List.dropWhile_append_of_pos (by simpa [isBlankOnly] using hlead), trimLeft]

/-- blanks around a text make no difference to what is left of it -/
theorem trim_padded {lead trail : Text} (hlead : isBlankOnly lead = true) (htrail : isBlankOnly trail = true)
    (t : Text) : trim (lead ++ (t ++ trail)) = trim t := by
  have hback : isBlankOnly trail.reverse = true := by rw [isBlankOnly_reverse, htrail]
  have hnone : trimLeft trail = [] := by
    rw [← List.append_nil trail, trimLeft_blanks htrail]
    rfl
  rw [trim, trimLeft_blanks hlead, trim]
  by_cases hempty : trimLeft t = []
  · have hfront : trimLeft (t ++ trail) = [] := by
      rw [trimLeft, List.dropWhile_append, ← trimLeft, hempty, List.isEmpty_nil, if_pos rfl]
      exact hnone
    rw [hfront, hempty]
  · have hfront : trimLeft (t ++ trail) = trimLeft t ++ trail := by
      rw [trimLeft, List.dropWhile_append, ← trimLeft, if_neg (by simpa using hempty)]
    rw [hfront, List.reverse_append, trimLeft_blanks hback]

theorem trim_eq_nil_iff {t : Text} : trim t = [] ↔ isBlankOnly t = true := by
  constructor
  · intro h
    obtain ⟨lead, trail, ht, hlead, htrail⟩ := exists_trim t
    rw [ht, h, List.nil_append, isBlankOnly_append, hlead, htrail]
    rfl
  · intro h
    have htrim : trim (t ++ ([] ++ [])) = [] := trim_padded h rfl []
    rwa [List.append_nil, List.append_nil] at htrim

/-! ## Words -/

/-- words have no blanks -/
theorem not_isBlank_of_mem_words {t w : Text} (hw : w ∈ words t) : ∀ c ∈ w, isBlank c = false := by
  induction t generalizing w with
  | nil => cases hw
  | cons c rest ih =>
    have hsingle (hc : ¬ isBlank c = true) : ∀ d ∈ [c], isBlank d = false := by simpa using hc
    rw [words.eq_def] at hw
    simp only at hw
    split at hw
    · exact ih hw
    · rename_i hc
      split at hw
      · rw [List.mem_singleton] at hw
        subst hw
        exact hsingle hc
      · split at hw
        · rcases List.mem_cons.1 hw with rfl | hw
          · exact hsingle hc
          · exact ih hw
        · split at hw
          · rw [List.mem_singleton] at hw
            subst hw
            exact hsingle hc
          · rename_i word more hwords
            rcases List.mem_cons.1 hw with rfl | hw
            · have hrest := ih (w := word) (by rw [hwords]; exact List.mem_cons_self)
              simpa using ⟨by simpa using hc, hrest⟩
            · exact ih (by rw [hwords]; exact List.mem_cons_of_mem _ hw)

theorem words_cons_of_blank {c : Char} (hc : isBlank c = true) (t : Text) : words (c :: t) = words t := by
  rw [words.eq_def]
  exact if_pos hc

theorem words_ne_nil {c : Char} (hc : isBlank c = false) (t : Text) : words (c :: t) ≠ [] := by
  rw [words.eq_def]
  simp only [hc, Bool.false_eq_true, if_false]
  split
  · simp
  · split
    · simp
    · split <;> simp

/-- a character that is no blank is a word of its own if nothing or a blank follows, else it starts the first word -/
theorem words_cons_of_not_blank {c : Char} (hc : isBlank c = false) (t : Text) :
    words (c :: t) = if t.head?.all isBlank then [c] :: words t else (words t).modifyHead (c :: ·) := by
  rw [words.eq_def]
  simp only [hc, Bool.false_eq_true, if_false]
  cases t with
  | nil => rfl
  | cons d t =>
    by_cases hd : isBlank d = true
    · exact (if_pos hd).trans (if_pos hd).symm
    · obtain ⟨w, more, hwords⟩ := List.exists_cons_of_ne_nil (words_ne_nil (by simpa using hd) t)
      rw [hwords]
      exact (if_neg hd).trans (if_neg hd).symm

/-- text without blanks in front of another one is a word of its own if that is empty or starts with a blank, else it
becomes part of the first word -/
theorem words_behind {p : Text} (hne : p ≠ []) (hp : ∀ c ∈ p, isBlank c = false) (t : Text) :
    words (p ++ t) = if t.head?.all isBlank then p :: words t else (words t).modifyHead (p ++ ·) := by
  induction p with
  | nil => exact absurd rfl hne
  | cons c p ih =>
    have hc := hp c List.mem_cons_self
    rw [List.cons_append, words_cons_of_not_blank hc]
    cases p with
    | nil => rfl
    | cons d p =>
      have hd := hp d (List.mem_cons_of_mem c List.mem_cons_self)
      rw [ih (List.cons_ne_nil d p) fun e he => hp e (List.mem_cons_of_mem c he)]
      simp only [List.cons_append, List.head?_cons, Option.all_some, hd, Bool.false_eq_true, if_false]
      split
      · rfl
      · rw [List.modifyHead_modifyHead]
        rfl

/-- a blank keeps words apart -/
theorem words_append_of_blank {c : Char} (hc : isBlank c = true) (s t : Text) :
    words (s ++ c :: t) = words s ++ words t := by
  induction s with
  | nil => exact words_cons_of_blank hc t
  | cons d s ih =>
    cases hd : isBlank d with
    | true => rw [List.cons_append, words_cons_of_blank hd, words_cons_of_blank hd, ih]
    | false =>
      rw [List.cons_append, words_cons_of_not_blank hd, words_cons_of_not_blank hd, ih]
      cases s with
      | nil => simp [hc, words]
      | cons e s =>
        cases he : isBlank e with
        | true => simp [he]
        | false =>
          obtain ⟨w, more, hwords⟩ := List.exists_cons_of_ne_nil (words_ne_nil he s)
          simp [he, hwords]

theorem words_blanks_append {lead : Text} (hlead : isBlankOnly lead = true) (t : Text) :
    words (lead ++ t) = words t := by
  induction lead with
  | nil => rfl
  | cons c lead ih =>
    rw [isBlankOnly_cons, Bool.and_eq_true] at hlead
    rw [List.cons_append, words_cons_of_blank hlead.1, ih hlead.2]

theorem words_of_blanks {t : Text} (ht : isBlankOnly t = true) : words t = [] := by
  have := words_blanks_append ht []
  rwa [List.append_nil] at this

theorem words_append_blanks (t : Text) {trail : Text} (htrail : isBlankOnly trail = true) :
    words (t ++ trail) = words t := by
  cases trail with
  | nil => rw [List.append_nil]
  | cons c trail =>
    rw [isBlankOnly_cons, Bool.and_eq_true] at htrail
    rw [words_append_of_blank htrail.1, words_of_blanks htrail.2, List.append_nil]

/-- trimming leaves the words -/
theorem words_trim (t : Text) : words (trim t) = words t := by
  obtain ⟨lead, trail, ht, hlead, htrail⟩ := exists_trim t
  conv => rhs; rw [ht, words_blanks_append hlead, words_append_blanks _ htrail]

/-- texts with a space between each two have the words of each -/
theorem words_intercalate (ts : List Text) : words ([' '].intercalate ts) = ts.flatMap words := by
  induction ts with
  | nil => rfl
  | cons t ts ih =>
    cases ts with
    | nil => simp
    | cons u ts =>
      rw [List.intercalate_cons_cons, List.append_assoc, List.singleton_append, words_append_of_blank (by decide), ih]
      rfl

/-- every text starts with a blank, or with a word behind which nothing or a blank stands, or is empty -/
theorem exists_word {c : Char} (hc : isBlank c = false) (t : Text) :
    ∃ w rest, c :: t = w ++ rest ∧ w ≠ [] ∧ (∀ d ∈ w, isBlank d = false) ∧ rest.head?.all isBlank = true := by
  refine ⟨(c :: t).takeWhile fun d => !isBlank d, (c :: t).dropWhile fun d => !isBlank d,
    List.takeWhile_append_dropWhile.symm, ?_, ?_, ?_⟩
  · rw [List.takeWhile_cons_of_pos (by simp [hc])]
    exact List.cons_ne_nil _ _
  · intro d hd
    simpa using List.all_eq_true.1 List.all_takeWhile d hd
  · have hhead := List.head?_dropWhile_not (fun d => !isBlank d) (c :: t)
    cases hrest : (List.dropWhile (fun d => !isBlank d) (c :: t)).head? with
    | none => rfl
    | some d =>
      rw [hrest] at hhead
      simpa using hhead

/-- a change of texts that leaves blanks as they are, and the other text between them without blanks, goes word by word -/
theorem words_map {e : Text → Text} (hnil : e [] = [])
    (hblank : ∀ c t, isBlank c = true → e (c :: t) = c :: e t)
    (happend : ∀ w t, t.head?.all isBlank = true → e (w ++ t) = e w ++ e t)
    (hword : ∀ w, w ≠ [] → (∀ c ∈ w, isBlank c = false) → e w ≠ [] ∧ ∀ c ∈ e w, isBlank c = false) (t : Text) :
    words (e t) = (words t).map e := by
  have hhead {t : Text} (ht : t.head?.all isBlank = true) : (e t).head?.all isBlank = true := by
    cases t with
    | nil => rw [hnil]; rfl
    | cons c t => rw [hblank c t (by simpa using ht)]; exact ht
  induction hn : t.length using Nat.strongRecOn generalizing t with
  | ind n ih =>
    cases t with
    | nil => rw [hnil]; rfl
    | cons c t =>
      cases hc : isBlank c with
      | true =>
        rw [hblank c t hc, words_cons_of_blank hc, words_cons_of_blank hc]
        exact ih t.length (by simp [← hn]) t rfl
      | false =>
        obtain ⟨w, rest, heq, hne, hw, hrest⟩ := exists_word hc t
        obtain ⟨hne', hw'⟩ := hword w hne hw
        rw [heq] at hn ⊢
        rw [happend w rest hrest, words_behind hne hw, words_behind hne' hw', if_pos hrest, if_pos (hhead hrest),
          List.map_cons]
        have hlength : rest.length < n := by
          rw [← hn, List.length_append]
          have := List.length_pos_of_ne_nil hne
          omega
        rw [ih rest.length hlength rest rfl]

/-- `Separated ws t`: `t` consists of the words `ws` and of blanks, which stand around and between them -/
inductive Separated : List Text → Text → Prop
  | nil : Separated [] []
  | blank {c : Char} {ws : List Text} {t : Text} : isBlank c = true → Separated ws t → Separated ws (c :: t)
  | word {w : Text} {ws : List Text} {t : Text} : w ≠ [] → (∀ c ∈ w, isBlank c = false) →
      t.head?.all isBlank = true → Separated ws t → Separated (w :: ws) (w ++ t)

theorem Separated.words_eq {ws : List Text} {t : Text} (h : Separated ws t) : words t = ws := by
  induction h with
  | nil => rfl
  | blank hc _ ih => rw [words_cons_of_blank hc, ih]
  | word hne hw ht _ ih => rw [words_behind hne hw, if_pos ht, ih]

theorem separated_words (t : Text) : Separated (words t) t := by
  induction hn : t.length using Nat.strongRecOn generalizing t with
  | ind n ih =>
    cases t with
    | nil => exact .nil
    | cons c t =>
      cases hc : isBlank c with
      | true =>
        rw [words_cons_of_blank hc]
        exact .blank hc (ih t.length (by simp [← hn]) t rfl)
      | false =>
        obtain ⟨w, rest, heq, hne, hw, hrest⟩ := exists_word hc t
        rw [heq] at hn ⊢
        have hlength : rest.length < n := by
          have := List.length_pos_of_ne_nil hne
          rw [← hn, List.length_append]
          omega
        rw [words_behind hne hw, if_pos hrest]
        exact .word hne hw hrest (ih rest.length hlength rest rfl)

/-- **The words of a text** are what stands between its blanks. -/
theorem words_eq_iff {ws : List Text} {t : Text} : words t = ws ↔ Separated ws t := by
  constructor
  · rintro rfl
    exact separated_words t
  · exact Separated.words_eq

/-- nothing but blanks is left out -/
theorem Separated.flatten_eq {ws : List Text} {t : Text} (h : Separated ws t) :
    ws.flatten = t.filter fun c => !isBlank c := by
  induction h with
  | nil => rfl
  | blank hc _ ih => rw [List.filter_cons_of_neg (by simp [hc]), ih]
  | @word w ws t _ hw _ _ ih =>
    have hkept : w.filter (fun c => !isBlank c) = w := List.filter_eq_self.2 fun c hc => by simp [hw c hc]
    rw [List.flatten_cons, List.filter_append, ih, hkept]

theorem words_of_not_isBlank {w : Text} (hne : w ≠ []) (hw : ∀ c ∈ w, isBlank c = false) : words w = [w] := by
  have hword : Separated [w] (w ++ []) := .word hne hw rfl .nil
  rw [List.append_nil] at hword
  exact hword.words_eq

/-! ## Texts next to each other -/

theorem forall_mem_intercalate {P : Char → Prop} {sep : Text} {ts : List Text} (hsep : ∀ c ∈ sep, P c)
    (hts : ∀ t ∈ ts, ∀ c ∈ t, P c) : ∀ c ∈ sep.intercalate ts, P c := by
  induction ts with
  | nil => exact fun c hc => nomatch hc
  | cons t ts ih =>
    have ht := hts t List.mem_cons_self
    have hrest := ih fun u hu => hts u (List.mem_cons_of_mem t hu)
    cases ts with
    | nil =>
      rw [List.intercalate_singleton]
      exact ht
    | cons =>
      rw [List.intercalate_cons_cons]
      exact List.forall_mem_append.2 ⟨List.forall_mem_append.2 ⟨ht, hsep⟩, hrest⟩

/-! ## Indices -/

theorem digitsValue_of_digits {t : Text} (h : ∀ c ∈ t, c.isDigit = true) (n : Nat) :
    digitsValue n t = some (Nat.ofDigitChars 10 t n) := by
  induction t generalizing n with
  | nil => rw [digitsValue, Nat.ofDigitChars_nil]
  | cons c rest ih =>
    rw [digitsValue, if_pos (h c List.mem_cons_self), Nat.ofDigitChars_cons]
    exact ih (fun d hd => h d (List.mem_cons_of_mem c hd)) _

theorem isDigit_of_mem_ofNat {n : Nat} {c : Char} (h : c ∈ ofNat n) : c.isDigit = true :=
  Nat.isDigit_of_mem_toDigits (by decide) (by decide) h

/-- a text that starts with a digit has no sign to drop -/
theorem toIndex?_of_digits {c : Char} {rest : Text} (h : ∀ d ∈ c :: rest, d.isDigit = true) :
    toIndex? (c :: rest) = (digitsValue 0 (c :: rest)).bind fun n => if n < indexLimit then some n else none := by
  have hc : c ≠ '+' := by
    intro hplus
    have hdigit : c.isDigit = true := h c List.mem_cons_self
    rw [hplus] at hdigit
    exact absurd hdigit (by decide)
  unfold toIndex?
  split
  · simp_all
  · simp only [List.isEmpty_cons, Bool.false_eq_true, if_false]
    cases digitsValue 0 (c :: rest) <;> rfl

/-- an index below the limit is read from its digits -/
theorem toIndex?_ofNat (n : Nat) : toIndex? (ofNat n) = if n < indexLimit then some n else none := by
  have hdigits : ∀ c ∈ ofNat n, c.isDigit = true := fun c hc => isDigit_of_mem_ofNat hc
  have hvalue : digitsValue 0 (ofNat n) = some n := by
    rw [digitsValue_of_digits hdigits, ofNat, Nat.ofDigitChars_ten_toDigits]
  obtain ⟨c, rest, hcons⟩ := List.exists_cons_of_ne_nil (Nat.toDigits_ne_nil (n := n) (b := 10))
  change ofNat n = c :: rest at hcons
  rw [hcons] at hdigits hvalue ⊢
  rw [toIndex?_of_digits hdigits, hvalue]; rfl

end Text

end TerseStyle

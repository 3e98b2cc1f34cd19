/-
The grammar of skeletons. A skeleton is the root name and a row of links, each a dot with a name or a call on a quoted
placeholder, with blanks in front of every part. The grammar is a relation between links and texts; it knows nothing of
lexemes or of a reader, and the number in a placeholder is the one that its digits denote.

Results:
- `placeholderIndex?_eq_some_iff`: the texts that hold an index.
- `spellsLinks_of_linksOf`, `linksOf_of_spellsLinks`: what is read as a row of links is spelled by them, and conversely.
- `parse_spelled_iff`: a skeleton is read as links exactly when the grammar spells it by them.
- `parse_blank_at_end`: blanks behind the last link are allowed.
-/
import TerseStyle.Proofs.Chain.FrontEnd
import TerseStyle.Proofs.Chain.Lexemes

namespace TerseStyle.Chain

open Text (isBlankOnly isBlankOnly_append isBlankOnly_cons)

/-! ## Indices -/

/-- the texts of an index: an optional plus sign and one or more digits, of a number below the limit -/
def SpelledIndex (n : Nat) (t : Text) : Prop :=
  ∃ sign digits, t = sign ++ digits ∧ (sign = [] ∨ sign = ['+']) ∧ digits ≠ [] ∧ (∀ c ∈ digits, c.isDigit = true) ∧
    Nat.ofDigitChars 10 digits 0 = n ∧ n < Text.indexLimit

theorem isDigit_of_digitsValue {t : Text} {read n : Nat} (h : Text.digitsValue read t = some n) :
    ∀ c ∈ t, c.isDigit = true := by
  induction t generalizing read with
  | nil => simp
  | cons c t ih =>
    rw [Text.digitsValue] at h
    split at h
    · rename_i hdigit
      exact List.forall_mem_cons.2 ⟨hdigit, ih h⟩
    · cases h

/-- the value of a row of digits, and that nothing else has one -/
theorem digitsValue_eq_some_iff {t : Text} {n : Nat} :
    Text.digitsValue 0 t = some n ↔ (∀ c ∈ t, c.isDigit = true) ∧ Nat.ofDigitChars 10 t 0 = n := by
  constructor
  · intro h
    have hdigits := isDigit_of_digitsValue h
    rw [Text.digitsValue_of_digits hdigits] at h
    exact ⟨hdigits, Option.some.inj h⟩
  · rintro ⟨hdigits, rfl⟩
    exact Text.digitsValue_of_digits hdigits 0

/-- a text without its plus sign -/
def withoutPlus : Text → Text
  | '+' :: rest => rest
  | t => t

theorem withoutPlus_of_digits {t : Text} (h : ∀ c ∈ t, c.isDigit = true) : withoutPlus t = t := by
  unfold withoutPlus
  split
  · exact absurd (h '+' List.mem_cons_self) (by decide)
  · rfl

theorem exists_sign (t : Text) : ∃ sign, t = sign ++ withoutPlus t ∧ (sign = [] ∨ sign = ['+']) := by
  unfold withoutPlus
  split
  · exact ⟨['+'], rfl, .inr rfl⟩
  · exact ⟨[], rfl, .inl rfl⟩

theorem toIndex?_eq (t : Text) :
    Text.toIndex? t = if withoutPlus t = [] then none
      else (Text.digitsValue 0 (withoutPlus t)).bind fun n => if n < Text.indexLimit then some n else none := by
  by_cases hplus : ∃ rest, t = '+' :: rest
  · obtain ⟨rest, rfl⟩ := hplus
    unfold Text.toIndex?
    simp only [withoutPlus, List.isEmpty_iff]
    cases Text.digitsValue 0 rest <;> rfl
  · have hwithout : withoutPlus t = t := by
      unfold withoutPlus
      split
      · exact absurd ⟨_, rfl⟩ hplus
      · rfl
    rw [hwithout]
    unfold Text.toIndex?
    split
    · exact absurd ⟨_, rfl⟩ hplus
    · simp only [List.isEmpty_iff]
      cases Text.digitsValue 0 t <;> rfl

theorem toIndex?_eq_some_iff {t : Text} {n : Nat} : Text.toIndex? t = some n ↔ SpelledIndex n t := by
  rw [toIndex?_eq]
  constructor
  · intro h
    split at h
    · cases h
    · rename_i hne
      obtain ⟨m, hvalue, hlimit⟩ := Option.bind_eq_some_iff.1 h
      split at hlimit <;> cases hlimit
      rename_i hlimit
      obtain ⟨sign, heq, hsign⟩ := exists_sign t
      obtain ⟨hdigits, hn⟩ := digitsValue_eq_some_iff.1 hvalue
      exact ⟨sign, withoutPlus t, heq, hsign, hne, hdigits, hn, hlimit⟩
  · rintro ⟨sign, digits, rfl, hsign, hne, hdigits, hn, hlimit⟩
    have hwithout : withoutPlus (sign ++ digits) = digits := by
      rcases hsign with rfl | rfl
      · exact withoutPlus_of_digits hdigits
      · rfl
    rw [hwithout, if_neg hne, digitsValue_eq_some_iff.2 ⟨hdigits, hn⟩, Option.bind_some, if_pos hlimit]

/-- the texts that hold an index: the word of placeholders, and an index behind it -/
theorem placeholderIndex?_eq_some_iff {t : Text} {n : Nat} :
    placeholderIndex? t = some n ↔ ∃ index, t = placeholderWord ++ index ∧ SpelledIndex n index := by
  rw [placeholderIndex?, Option.bind_eq_some_iff]
  simp only [List.isPrefixOf?_eq_some_iff_append_eq, toIndex?_eq_some_iff, @eq_comm _ _ t]

theorem SpelledIndex.ne_quote {n : Nat} {t : Text} (h : SpelledIndex n t) : ∀ c ∈ t, c ≠ '"' := by
  obtain ⟨sign, digits, rfl, hsign, _, hdigits, _⟩ := h
  rintro c hc rfl
  rcases List.mem_append.1 hc with hc | hc
  · rcases hsign with rfl | rfl <;> simp at hc
  · exact absurd (hdigits _ hc) (by decide)

/-! ## The grammar -/

/-- the texts of one link: a dot and a name, or a call on a quoted placeholder, with blanks between the parts -/
inductive Link.Spelled : Link → Text → Prop
  | access {gap name : Text} (hgap : isBlankOnly gap = true) (hne : name ≠ [])
      (hname : ∀ c ∈ name, isNameChar c = true) : Spelled (.access name) ('.' :: (gap ++ name))
  | call {gap gap' index : Text} {n : Nat} (hgap : isBlankOnly gap = true) (hindex : SpelledIndex n index)
      (hgap' : isBlankOnly gap' = true) :
      Spelled (.call n) ('(' :: (gap ++ '"' :: (placeholderWord ++ index ++ '"' :: (gap' ++ [')']))))

/-- the texts of a row of links, each behind optional blanks -/
inductive SpellsLinks : List Link → Text → Prop
  | nil : SpellsLinks [] []
  | cons {gap t rest : Text} {link : Link} {links : List Link} (hgap : isBlankOnly gap = true) (hlink : link.Spelled t)
      (h : SpellsLinks links rest) : SpellsLinks (link :: links) (gap ++ (t ++ rest))

/-- the texts of a skeleton: optional blanks, the root name, and links up to the end -/
def StrictSkeleton (root : Text) (links : List Link) (t : Text) : Prop :=
  ∃ lead body, t = lead ++ (root ++ body) ∧ isBlankOnly lead = true ∧ (∀ c ∈ root, isNameChar c = true) ∧
    SpellsLinks links body

/-- the texts of a skeleton, with optional blanks at the end -/
def SpelledSkeleton (root : Text) (links : List Link) (t : Text) : Prop :=
  ∃ skeleton trail, t = skeleton ++ trail ∧ isBlankOnly trail = true ∧ StrictSkeleton root links skeleton

/-- a link starts with a dot or an opening parenthesis -/
theorem Link.Spelled.head {link : Link} {t : Text} (h : link.Spelled t) :
    ∃ c rest, t = c :: rest ∧ (c = '.' ∨ c = '(') := by
  cases h with
  | access => exact ⟨'.', _, rfl, .inl rfl⟩
  | call => exact ⟨'(', _, rfl, .inr rfl⟩

/-- **Names are as long as possible**: no character of a name stands in front of links, or of the blanks behind them. -/
theorem SpellsLinks.head {links : List Link} {body trail : Text} (h : SpellsLinks links body)
    (htrail : isBlankOnly trail = true) : ∀ c ∈ (body ++ trail).head?, isNameChar c = false := by
  have hblanks {gap rest : Text} (hgap : isBlankOnly gap = true) (hrest : ∀ c ∈ rest.head?, isNameChar c = false) :
      ∀ c ∈ (gap ++ rest).head?, isNameChar c = false := by
    cases gap with
    | nil => exact hrest
    | cons d gap =>
      rw [isBlankOnly_cons, Bool.and_eq_true] at hgap
      intro c hc
      obtain rfl := Option.some.inj hc
      exact isNameChar_of_isBlank hgap.1
  cases h with
  | nil =>
    rw [List.nil_append, ← List.append_nil trail]
    exact hblanks htrail (by simp)
  | @cons gap t rest link links hgap hlink =>
    rw [List.append_assoc]
    refine hblanks hgap ?_
    obtain ⟨d, more, rfl, hd⟩ := hlink.head
    intro c hc
    obtain rfl := Option.some.inj hc
    exact (not_isBlank_mark (by tauto)).2

/-- a link ends with a character of its name or with a closing parenthesis -/
theorem Link.Spelled.last {link : Link} {t : Text} (h : link.Spelled t) :
    ∃ front c, t = front ++ [c] ∧ isBlank c = false := by
  cases h with
  | @access gap name _ hne hname => exact exists_last_name hne hname ('.' :: gap)
  | @call gap gap' index _ _ _ _ =>
    exact ⟨'(' :: (gap ++ '"' :: (placeholderWord ++ index ++ '"' :: gap')), ')', by simp, by decide⟩

/-- a row of links is empty or ends with a character that is no blank -/
theorem SpellsLinks.last {links : List Link} {t : Text} (h : SpellsLinks links t) :
    ∀ c ∈ t.getLast?, isBlank c = false := by
  induction h with
  | nil => simp
  | cons _ hlink _ ih =>
    obtain ⟨front, d, rfl, hd⟩ := hlink.last
    exact last_behind hd ih

/-! ## Reading -/

/-- what the texts of a mark look like -/
theorem renders_mark {c : Char} (hquote : c ≠ '"') {ls : List Lexeme} {t : Text} (h : Renders (.mark c :: ls) t) :
    ∃ gap rest, t = gap ++ c :: rest ∧ isBlankOnly gap = true ∧ Renders ls rest := by
  cases h with
  | unclosed => exact absurd rfl hquote
  | mark hgap _ _ _ h => exact ⟨_, _, rfl, hgap, h⟩

/-- lexemes that are read as links are those of a row of links, with blanks behind it -/
theorem spellsLinks_of_linksOf {skeleton : Text} {links : List Link} {ls : List Lexeme}
    (h : linksOf skeleton ls = .ok links) {t : Text} (ht : Renders ls t) :
    ∃ body trail, t = body ++ trail ∧ isBlankOnly trail = true ∧ SpellsLinks links body := by
  induction links generalizing ls t with
  | nil =>
    rcases linksOf_cases h with ⟨rfl, _⟩ | ⟨_, _, _, _, _, heq⟩ | ⟨_, _, _, _, _, _, _, heq⟩
    · cases ht with
      | blanks hgap => exact ⟨[], t, rfl, hgap, .nil⟩
    · cases heq
    · cases heq
  | cons link links ih =>
    rcases linksOf_cases h with ⟨_, heq⟩ | ⟨name, rest, more, rfl, hmore, heq⟩ |
      ⟨inner, index, rest, more, rfl, hindex, hmore, heq⟩
    · cases heq
    · cases heq
      obtain ⟨gap, behind, rfl, hgap, hname⟩ := renders_mark (by decide) ht
      cases hname with
      | name hgap' hne hname _ hrest =>
        obtain ⟨body, trail, rfl, htrail, hbody⟩ := ih hmore hrest
        exact ⟨_, trail, by simp, htrail, .cons hgap (.access hgap' hne hname) hbody⟩
    · cases heq
      obtain ⟨gap, behind, rfl, hgap, hquoted⟩ := renders_mark (by decide) ht
      cases hquoted with
      | quoted hgap' _ hclose =>
        obtain ⟨gap'', behind, rfl, hgap'', hrest⟩ := renders_mark (by decide) hclose
        obtain ⟨digits, rfl, hdigits⟩ := placeholderIndex?_eq_some_iff.1 hindex
        obtain ⟨body, trail, rfl, htrail, hbody⟩ := ih hmore hrest
        exact ⟨_, trail, by simp, htrail, .cons hgap (.call hgap' hdigits hgap'') hbody⟩

/-- a row of links with blanks behind it is read as these links -/
theorem linksOf_of_spellsLinks {links : List Link} {body trail : Text} (h : SpellsLinks links body)
    (htrail : isBlankOnly trail = true) (skeleton : Text) : linksOf skeleton (lexemes (body ++ trail)) = .ok links := by
  induction h with
  | nil =>
    rw [List.nil_append, lexemes_eq_iff.2 (.blanks htrail), linksOf_nil]
  | @cons gap t rest link links hgap hlink hrest ih =>
    rw [List.append_assoc, lexemes_gap hgap]
    cases hlink with
    | @access gap' name hgap' hne hname =>
      have hsplit : '.' :: (gap' ++ name) ++ (rest ++ trail) = '.' :: (gap' ++ (name ++ (rest ++ trail))) := by simp
      rw [List.append_assoc, hsplit, lexemes_mark (by decide) (by decide) (by decide), lexemes_gap hgap',
        lexemes_name hne hname (hrest.head htrail), linksOf, ih]
      rfl
    | @call gap' gap'' index n hgap' hindex hgap'' =>
      have hword : '"' ∉ placeholderWord := by decide
      have hinner : ∀ c ∈ placeholderWord ++ index, c ≠ '"' :=
        List.forall_mem_append.2 ⟨fun c hc heq => hword (heq ▸ hc), hindex.ne_quote⟩
      have hplaceholder : placeholderIndex? (placeholderWord ++ index) = some n :=
        placeholderIndex?_eq_some_iff.2 ⟨index, rfl, hindex⟩
      have hsplit : '(' :: (gap' ++ '"' :: (placeholderWord ++ index ++ '"' :: (gap'' ++ [')']))) ++ rest ++ trail =
          '(' :: (gap' ++ '"' :: (placeholderWord ++ index ++ '"' :: (gap'' ++ ')' :: (rest ++ trail)))) := by simp
      rw [hsplit, lexemes_mark (by decide) (by decide) (by decide), lexemes_gap hgap', lexemes_quoted hinner,
        lexemes_gap hgap'', lexemes_mark (by decide) (by decide) (by decide), linksOf, hplaceholder]
      change (linksOf skeleton (lexemes (rest ++ trail))).map _ = _
      rw [ih]
      rfl

/-- **The grammar of skeletons.** A skeleton is read as links exactly when it is spelled by them: optional blanks, the
root name, then the links in order, each a dot with a name or a call on the quoted placeholder of an index, with optional
blanks in front of every part, inside the parentheses and at the end. No other text is read, none of these is refused,
and no link is lost. -/
theorem parse_spelled_iff (root skeleton : Text) (links : List Link) :
    parse skeleton root = .ok links ↔ SpelledSkeleton root links skeleton := by
  constructor
  · intro h
    unfold parse leadingName at h
    split at h
    rename_i found rest hleading
    split at h
    · rename_i hfound
      subst hfound
      split at hleading
      · rename_i name more hlexemes
        cases hleading
        cases lexemes_eq_iff.1 hlexemes with
        | name hgap _ hname _ ht =>
          obtain ⟨body, trail, rfl, htrail, hbody⟩ := spellsLinks_of_linksOf h ht
          exact ⟨_, trail, by simp, htrail, _, body, rfl, hgap, hname, hbody⟩
      · -- no name stands in front, so the root is empty
        cases hleading
        obtain ⟨body, trail, rfl, htrail, hbody⟩ := spellsLinks_of_linksOf h (lexemes_eq_iff.1 rfl)
        exact ⟨body, trail, rfl, htrail, [], body, rfl, rfl, by simp, hbody⟩
    · cases h
  · rintro ⟨_, trail, rfl, htrail, lead, body, rfl, hlead, hroot, hbody⟩
    have hlinks := linksOf_of_spellsLinks hbody htrail (lead ++ (root ++ body) ++ trail)
    have hsplit : lexemes (lead ++ (root ++ body) ++ trail) = lexemes (root ++ (body ++ trail)) := by
      rw [List.append_assoc, lexemes_gap hlead, List.append_assoc]
    unfold parse
    rw [hsplit]
    by_cases hempty : root = []
    · subst hempty
      have hleading : leadingName (lexemes (body ++ trail)) = ([], lexemes (body ++ trail)) := by
        rcases linksOf_cases hlinks with ⟨heq, _⟩ | ⟨_, _, _, heq, _⟩ | ⟨_, _, _, _, heq, _⟩ <;> rw [heq] <;> rfl
      rw [List.nil_append, hleading]
      exact hlinks
    · rw [lexemes_name hempty hroot (hbody.head htrail)]
      exact (if_pos rfl).trans hlinks

/-- **Blanks at the end are allowed.** A skeleton with a blank behind its last link is read, though none of its parts
follows that blank. -/
theorem parse_blank_at_end :
    parse "SS.a ".toList "SS".toList = .ok [.access "a".toList] ∧
      ¬ ∃ links, StrictSkeleton "SS".toList links "SS.a ".toList := by
  refine ⟨rfl, ?_⟩
  rintro ⟨links, lead, body, heq, _, _, hbody⟩
  -- a strict spelling ends with the root or with its last link, and neither ends with a blank
  have hlast : ∀ c ∈ (lead ++ ("S".toList ++ ['S'] ++ body)).getLast?, isBlank c = false :=
    last_behind (by decide) hbody.last
  have hblank := hlast ' ' (congrArg List.getLast? heq).symm
  exact absurd hblank (by decide)

end TerseStyle.Chain

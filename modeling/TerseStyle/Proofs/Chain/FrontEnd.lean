/-
The front end of a chain read as a whole: a text is lifted to a skeleton, the skeleton is cut into lexemes, and the
lexemes are read as links. `skeletonLexemes` follows one character of the text at a time through the first two steps, so
that neither the skeleton nor its placeholders show in what is proved about the third.

Results:
- `spells_of_linksOf`: lexemes that are read as links come from a spelled row of links, numbered from the first index.
- `skeletonLexemes_chain`: the lexemes of a spelled chain are those of its root and of its links.
- `spelled_of_parse`, `parse_of_spelled`: a chain that is read is spelled, and a spelled chain is read as long as its
  indices stay below the limit.
- `SpelledChain.unique`: a text is spelled by one row of links only.
- `parse_lift_iff`: a lifted text is read exactly when it is spelled as a chain; its links are the spelled ones numbered
  in order, and its arguments are the payloads of the calls as they are written.
- `parse_lift_blank_at_end`: blanks behind the last link are allowed, which a spelling with blanks only in front of and
  between its parts would exclude.
-/
import TerseStyle.Proofs.Chain.Lexemes
import TerseStyle.Proofs.Chain.Lifting

namespace TerseStyle.Chain

open Text (isBlankOnly isBlankOnly_append isBlankOnly_cons)

/-! ## Placeholders -/

/-- a placeholder holds its index, as long as that is below the limit -/
theorem placeholderIndex?_placeholder (n : Nat) :
    placeholderIndex? (placeholder n) = if n < Text.indexLimit then some n else none := by
  have : placeholderWord.isPrefixOf? (placeholder n) = some (Text.ofNat n) := by
    rw [List.isPrefixOf?_eq_some_iff_append_eq]; rfl
  rw [placeholderIndex?, this, Option.bind_some, Text.toIndex?_ofNat]

/-- a placeholder holds the characters of its word and digits only -/
theorem ne_of_mem_placeholder {n : Nat} {c d : Char} (h : c ∈ placeholder n) (hword : d ∉ placeholderWord)
    (hdigit : d.isDigit = false) : c ≠ d := by
  intro hc
  rw [hc] at h
  rcases List.mem_append.1 h with h | h
  · exact hword h
  · rw [Text.isDigit_of_mem_ofNat h] at hdigit
    cases hdigit

theorem ne_quote_of_mem_placeholder {n : Nat} {c : Char} (h : c ∈ placeholder n) : c ≠ '"' :=
  ne_of_mem_placeholder h (by decide) rfl

/-! ## The lexemes of a skeleton, by the characters of the text -/

/-- the lexemes of the skeleton of a text whose arguments are numbered from `next` -/
def skeletonLexemes (next : Nat) (t : Text) : List Lexeme := lexemes (liftFrom next 0 [] t).skeleton

theorem head?_skeleton (next : Nat) (t : Text) : (liftFrom next 0 [] t).skeleton.head? = t.head? := by
  cases t with
  | nil => rw [liftFrom_nil]
  | cons c t =>
    by_cases h : c = '('
    · subst h; rw [liftFrom_open]; rfl
    · rw [liftFrom_plain h]; rfl

theorem skeletonLexemes_nil (next : Nat) : skeletonLexemes next [] = [] := by
  rw [skeletonLexemes, liftFrom_nil]; rfl

/-- text without an opening parenthesis is cut as it stands -/
theorem skeletonLexemes_copied {next : Nat} {s t : Text} (h : ∀ c ∈ s, c ≠ '(') :
    skeletonLexemes next (s ++ t) = lexemes (s ++ (liftFrom next 0 [] t).skeleton) := by
  rw [skeletonLexemes, liftFrom_copied h]; rfl

theorem skeletonLexemes_plain {next : Nat} {c : Char} {t : Text} (h : c ≠ '(') :
    skeletonLexemes next (c :: t) = lexemes (c :: (liftFrom next 0 [] t).skeleton) :=
  skeletonLexemes_copied (s := [c]) (by simpa using h)

theorem skeletonLexemes_blank {next : Nat} {c : Char} {t : Text} (h : isBlank c = true) :
    skeletonLexemes next (c :: t) = skeletonLexemes next t := by
  have hopen : c ≠ '(' := by
    rintro rfl
    exact absurd h (by decide)
  rw [skeletonLexemes_plain hopen, lexemes_blank h]; rfl

theorem skeletonLexemes_gap {next : Nat} {gap t : Text} (h : isBlankOnly gap = true) :
    skeletonLexemes next (gap ++ t) = skeletonLexemes next t := by
  rw [skeletonLexemes_copied (ne_open_of_isBlankOnly h), lexemes_gap h]; rfl

theorem skeletonLexemes_nameChar {next : Nat} {c : Char} {t : Text} (h : isNameChar c = true) :
    skeletonLexemes next (c :: t) = addNameChar c t (skeletonLexemes next t) := by
  rw [skeletonLexemes_plain (ne_open_of_isNameChar h), lexemes_nameChar h]
  exact addNameChar_congr (head?_skeleton next t)

/-- a name as long as possible is one lexeme -/
theorem skeletonLexemes_name {next : Nat} {name t : Text} (hne : name ≠ []) (hname : ∀ c ∈ name, isNameChar c = true)
    (ht : ∀ c ∈ t.head?, isNameChar c = false) :
    skeletonLexemes next (name ++ t) = .name name :: skeletonLexemes next t := by
  rw [skeletonLexemes_copied fun c hc => ne_open_of_isNameChar (hname c hc),
    lexemes_name hne hname (by rwa [head?_skeleton])]
  rfl

theorem skeletonLexemes_mark {next : Nat} {c : Char} {t : Text} (hblank : isBlank c = false)
    (hname : isNameChar c = false) (hquote : c ≠ '"') (hopen : c ≠ '(') :
    skeletonLexemes next (c :: t) = .mark c :: skeletonLexemes next t := by
  rw [skeletonLexemes_plain hopen, lexemes_mark hblank hname hquote]; rfl

/-- an opening parenthesis gives a placeholder, and what is inside the group only decides how it goes on -/
theorem skeletonLexemes_open (next : Nat) (t : Text) :
    skeletonLexemes next ('(' :: t) =
      .mark '(' :: .quoted (placeholder next) :: lexemes (liftFrom next 1 [] t).skeleton := by
  have hskeleton : (liftFrom next 0 [] ('(' :: t)).skeleton =
      '(' :: '"' :: (placeholder next ++ '"' :: (liftFrom next 1 [] t).skeleton) := by
    rw [liftFrom_open]; simp [Lifted.prepend]
  rw [skeletonLexemes, hskeleton, lexemes_mark (by decide) (by decide) (by decide),
    lexemes_quoted fun c hc => ne_quote_of_mem_placeholder hc]

/-- a whole call gives three lexemes -/
theorem skeletonLexemes_call {next : Nat} {payload t : Text} (h : Balanced payload) :
    skeletonLexemes next ('(' :: (payload ++ ')' :: t)) =
      .mark '(' :: .quoted (placeholder next) :: .mark ')' :: skeletonLexemes (next + 1) t := by
  rw [skeletonLexemes_open, liftFrom_payload h, liftFrom_close]
  change _ :: _ :: lexemes (')' :: _) = _
  rw [lexemes_mark (by decide) (by decide) (by decide)]; rfl

theorem lexemesFrom_some (inner t : Text) :
    ∃ lexeme more, lexemesFrom (some inner) t = lexeme :: more ∧ (lexeme = .mark '"' ∨ ∃ q, lexeme = .quoted q) := by
  induction t generalizing inner with
  | nil => exact ⟨.mark '"', [], by rw [lexemesFrom], Or.inl rfl⟩
  | cons c t ih =>
    rw [lexemesFrom]
    split
    · exact ⟨_, _, rfl, Or.inr ⟨_, rfl⟩⟩
    · exact ih _

/-- a quote in the text itself never ends up in a call -/
theorem skeletonLexemes_quote (next : Nat) (t : Text) :
    ∃ lexeme more, skeletonLexemes next ('"' :: t) = lexeme :: more ∧
      (lexeme = .mark '"' ∨ ∃ q, lexeme = .quoted q) := by
  rw [skeletonLexemes, liftFrom_plain (by decide)]
  change ∃ lexeme more, lexemes ('"' :: _) = lexeme :: more ∧ _
  rw [lexemes_cons, if_pos rfl]
  exact lexemesFrom_some _ _

/-! ## Reading lexemes -/

/-- what lexemes are when they are read as links: none at all, a dot with a name, or a call on a placeholder -/
theorem linksOf_cases {skeleton : Text} {lexemes : List Lexeme} {links : List Link}
    (h : linksOf skeleton lexemes = .ok links) :
    (lexemes = [] ∧ links = []) ∨
    (∃ name rest more, lexemes = .mark '.' :: .name name :: rest ∧ linksOf skeleton rest = .ok more ∧
      links = .access name :: more) ∨
    (∃ inner index rest more, lexemes = .mark '(' :: .quoted inner :: .mark ')' :: rest ∧
      placeholderIndex? inner = some index ∧ linksOf skeleton rest = .ok more ∧ links = .call index :: more) := by
  have of_map {link : Link} {rest : List Lexeme} (h : (linksOf skeleton rest).map (link :: ·) = .ok links) :
      ∃ more, linksOf skeleton rest = .ok more ∧ links = link :: more := by
    cases hrest : linksOf skeleton rest with
    | error fault => rw [hrest] at h; cases h
    | ok more => rw [hrest] at h; cases h; exact ⟨more, rfl, rfl⟩
  unfold linksOf at h
  split at h
  · cases h; exact Or.inl ⟨rfl, rfl⟩
  · obtain ⟨more, hmore, rfl⟩ := of_map h
    exact Or.inr (Or.inl ⟨_, _, more, rfl, hmore, rfl⟩)
  · cases h
  · split at h
    · cases h
    · rename_i index hindex
      split at h
      · obtain ⟨more, hmore, rfl⟩ := of_map h
        exact Or.inr (Or.inr ⟨_, index, _, more, rfl, hindex, hmore, rfl⟩)
      · cases h
  · cases h
  · cases h

/-- lexemes that are not read as links fail for one of four reasons -/
theorem linksOf_error {skeleton : Text} {lexemes : List Lexeme} {fault : Fault}
    (h : linksOf skeleton lexemes = .error fault) :
    fault = .missingName skeleton ∨ fault = .missingPlaceholder skeleton ∨ fault = .unclosedCall skeleton ∨
      ∃ c, fault = .unexpected c skeleton := by
  have of_map {link : Link} {rest : List Lexeme} (h : (linksOf skeleton rest).map (link :: ·) = .error fault) :
      linksOf skeleton rest = .error fault := by
    cases hrest : linksOf skeleton rest with
    | error fault => rw [hrest] at h; exact h
    | ok more => rw [hrest] at h; cases h
  fun_induction linksOf skeleton lexemes with
  | case1 => cases h
  | case2 name rest ih => exact ih (of_map h)
  | case3 | case4 | case6 | case7 | case8 => cases h; simp
  | case5 inner index hindex more ih => exact ih (of_map h)

/-! ## From links to their spelling -/

/-- the first name among lexemes is spelled behind blanks, and as long as possible -/
theorem spelled_of_name {next : Nat} {t name : Text} {more : List Lexeme}
    (h : skeletonLexemes next t = .name name :: more) :
    ∃ gap rest, t = gap ++ (name ++ rest) ∧ isBlankOnly gap = true ∧ name ≠ [] ∧ (∀ c ∈ name, isNameChar c = true) ∧
      more = skeletonLexemes next rest := by
  induction t generalizing name more with
  | nil => rw [skeletonLexemes_nil] at h; cases h
  | cons c t ih =>
    by_cases hblank : isBlank c = true
    · rw [skeletonLexemes_blank hblank] at h
      obtain ⟨gap, rest, rfl, hgap, hrest⟩ := ih h
      exact ⟨c :: gap, rest, rfl, by rw [isBlankOnly_cons, hblank, hgap]; rfl, hrest⟩
    by_cases hname : isNameChar c = true
    · rw [skeletonLexemes_nameChar hname] at h
      unfold addNameChar at h
      -- the character is a name of its own unless the name that was read behind it follows directly
      have single : Lexeme.name [c] :: skeletonLexemes next t = .name name :: more →
          ∃ gap rest, c :: t = gap ++ (name ++ rest) ∧ isBlankOnly gap = true ∧ name ≠ [] ∧
            (∀ c ∈ name, isNameChar c = true) ∧ more = skeletonLexemes next rest := by
        intro h
        injection h with h1 h2
        injection h1 with h1
        subst h1 h2
        exact ⟨[], t, rfl, rfl, by simp, by simpa using hname, rfl⟩
      split at h
      · rename_i s tail heq
        split at h
        · rename_i hhead
          injection h with h1 h2
          injection h1 with h1
          subst h1 h2
          obtain ⟨gap, rest, rfl, hgap, hne, hs, hrest⟩ := ih heq
          cases gap with
          | nil => exact ⟨[], rest, rfl, rfl, by simp, by simpa [hname] using hs, hrest⟩
          | cons d gap =>
            rw [isBlankOnly_cons, Bool.and_eq_true] at hgap
            rw [List.cons_append, List.head?_cons, Option.any_some, isNameChar_of_isBlank hgap.1] at hhead
            exact absurd hhead (by decide)
        · exact single h
      · exact single h
    · exfalso
      by_cases hquote : c = '"'
      · subst hquote
        obtain ⟨lexeme, tail, heq, hlexeme⟩ := skeletonLexemes_quote next t
        rw [heq] at h
        injection h with h1 _
        rcases hlexeme with rfl | ⟨q, rfl⟩ <;> cases h1
      · by_cases hopen : c = '('
        · subst hopen; rw [skeletonLexemes_open] at h; cases h
        · rw [skeletonLexemes_mark (by simpa using hblank) (by simpa using hname) hquote hopen] at h; cases h

/-- a row of lexemes that starts a link does not start with another character of the text -/
theorem linksOf_head {skeleton : Text} {next : Nat} {c : Char} {t : Text} {links : List Link}
    (h : linksOf skeleton (skeletonLexemes next (c :: t)) = .ok links) : isBlank c = true ∨ c = '.' ∨ c = '(' := by
  by_contra hc
  obtain ⟨hblank, hdot, hopen⟩ : isBlank c = false ∧ c ≠ '.' ∧ c ≠ '(' := by simpa using hc
  -- the character gives a name, something quoted or another mark, none of which starts a link
  obtain ⟨lexeme, more, heq, hne⟩ : ∃ lexeme more, skeletonLexemes next (c :: t) = lexeme :: more ∧
      lexeme ≠ .mark '.' ∧ lexeme ≠ .mark '(' := by
    by_cases hname : isNameChar c = true
    · rw [skeletonLexemes_nameChar hname]
      unfold addNameChar
      split
      · split <;> exact ⟨_, _, rfl, by simp, by simp⟩
      · exact ⟨_, _, rfl, by simp, by simp⟩
    by_cases hquote : c = '"'
    · subst hquote
      obtain ⟨lexeme, more, heq, rfl | ⟨q, rfl⟩⟩ := skeletonLexemes_quote next t
      · exact ⟨_, more, heq, by simp, by simp⟩
      · exact ⟨_, more, heq, by simp, by simp⟩
    · have hname : isNameChar c = false := by simpa using hname
      exact ⟨_, _, skeletonLexemes_mark hblank hname hquote hopen, by simpa using hdot, by simpa using hopen⟩
  rw [heq] at h
  rcases linksOf_cases h with ⟨hl, _⟩ | ⟨_, _, _, hl, _⟩ | ⟨_, _, _, _, hl, _⟩
  · cases hl
  · cases hl; exact hne.1 rfl
  · cases hl; exact hne.2 rfl

/-- **Only spelled links are read.** Lexemes of a skeleton that are read as links come from a row of links and blanks
behind it. -/
theorem spells_of_linksOf {skeleton : Text} (n : Nat) {t : Text} (hn : t.length ≤ n) {next : Nat} {links : List Link}
    (h : linksOf skeleton (skeletonLexemes next t) = .ok links) :
    ∃ sources body trail, t = body ++ trail ∧ isBlankOnly trail = true ∧ Spells sources body ∧
      links = numbered next sources := by
  -- the induction is on a bound of the length, because a link takes several characters at once
  induction n generalizing t next links with
  | zero =>
    obtain rfl := List.length_eq_zero_iff.1 (Nat.le_zero.1 hn)
    rw [skeletonLexemes_nil, linksOf_nil] at h
    cases h
    exact ⟨[], [], [], rfl, rfl, .nil, rfl⟩
  | succ n ih =>
    cases t with
    | nil =>
      rw [skeletonLexemes_nil, linksOf_nil] at h
      cases h
      exact ⟨[], [], [], rfl, rfl, .nil, rfl⟩
    | cons c t =>
      rw [List.length_cons, Nat.succ_le_succ_iff] at hn
      rcases linksOf_head h with hblank | rfl | rfl
      · rw [skeletonLexemes_blank hblank] at h
        have hgap : isBlankOnly [c] = true := by rw [isBlankOnly_cons, hblank]; rfl
        obtain ⟨sources, body, trail, rfl, htrail, hbody, hlinks⟩ := ih hn h
        cases sources with
        | nil =>
          cases hbody
          exact ⟨[], [], [c] ++ trail, rfl, by rw [isBlankOnly_append, hgap, htrail]; rfl, .nil, hlinks⟩
        | cons link sources => exact ⟨link :: sources, [c] ++ body, trail, rfl, htrail, hbody.indent hgap, hlinks⟩
      · rw [skeletonLexemes_mark (by decide) (by decide) (by decide) (by decide)] at h
        rcases linksOf_cases h with ⟨hl, _⟩ | ⟨name, rest, more, hl, hmore, rfl⟩ | ⟨_, _, _, _, hl, _⟩
        · cases hl
        · injection hl with _ hl
          obtain ⟨gap, rest, rfl, hgap, hne, hname, rfl⟩ := spelled_of_name hl
          have hlen : rest.length ≤ n := by simp only [List.length_append] at hn; omega
          obtain ⟨sources, body, trail, rfl, htrail, hbody, rfl⟩ := ih hlen hmore
          exact ⟨.access name :: sources, [] ++ ('.' :: (gap ++ name) ++ body), trail, by simp, htrail,
            Spells.cons rfl (.access hgap hne hname) hbody, rfl⟩
        · cases hl
      · rcases liftFrom_group next t with hlost | ⟨payload, rest, rfl, hpayload, _⟩
        · -- the group is never closed, so that nothing follows its placeholder
          rw [skeletonLexemes_open, hlost] at h
          rcases linksOf_cases h with ⟨hl, _⟩ | ⟨_, _, _, hl, _⟩ | ⟨_, _, _, _, hl, _⟩ <;> cases hl
        · rw [skeletonLexemes_call hpayload] at h
          rcases linksOf_cases h with ⟨hl, _⟩ | ⟨_, _, _, hl, _⟩ | ⟨inner, index, tail, more, hl, hindex, hmore, rfl⟩
          · cases hl
          · cases hl
          · cases hl
            rw [placeholderIndex?_placeholder] at hindex
            split at hindex
            · cases hindex
              have hlen : rest.length ≤ n := by simp only [List.length_append, List.length_cons] at hn; omega
              obtain ⟨sources, body, trail, rfl, htrail, hbody, rfl⟩ := ih hlen hmore
              exact ⟨.call payload :: sources, [] ++ ('(' :: (payload ++ [')']) ++ body), trail, by simp, htrail,
                Spells.cons rfl (.call hpayload) hbody, rfl⟩
            · cases hindex

theorem parse_lift (root t : Text) (offset : Nat) :
    parse (lift t offset).skeleton root =
      if (leadingName (skeletonLexemes offset t)).1 = root then
        linksOf (lift t offset).skeleton (leadingName (skeletonLexemes offset t)).2
      else .error (.wrongRoot root (leadingName (skeletonLexemes offset t)).1 (lift t offset).skeleton) := rfl

/-- reading a chain never fails for want of an argument -/
theorem parse_ne_noArgument (skeleton root : Text) (index : Nat) :
    parse skeleton root ≠ .error (.noArgument index) := by
  intro h
  unfold parse at h
  split at h
  split at h
  · rcases linksOf_error h with h | h | h | ⟨_, h⟩ <;> cases h
  · cases h

/-- **Only spelled chains are read.** -/
theorem spelled_of_parse {root t : Text} {offset : Nat} {links : List Link}
    (h : parse (lift t offset).skeleton root = .ok links) :
    ∃ sources, SpelledChain root sources t ∧ links = numbered offset sources := by
  rw [parse_lift] at h
  split at h
  · rename_i hroot
    unfold leadingName at h hroot
    split at h
    · rename_i name more heq
      rw [heq] at hroot
      obtain rfl : name = root := hroot
      obtain ⟨gap, rest, rfl, hgap, _, hname, rfl⟩ := spelled_of_name heq
      obtain ⟨sources, body, trail, rfl, htrail, hbody, hlinks⟩ := spells_of_linksOf _ (Nat.le_refl _) h
      exact ⟨sources, ⟨gap ++ (name ++ body), trail, by simp, htrail, gap, body, rfl, hgap, hname, hbody⟩, hlinks⟩
    · split at hroot
      · rename_i hno _ _ _ heq; exact absurd heq (hno _ _)
      · subst hroot
        obtain ⟨sources, body, trail, rfl, htrail, hbody, hlinks⟩ := spells_of_linksOf _ (Nat.le_refl _) h
        exact ⟨sources, ⟨body, trail, rfl, htrail, [], body, rfl, rfl, by simp, hbody⟩, hlinks⟩
  · cases h

/-! ## From a spelling to its links -/

/-- what follows a name in a row of links is no part of the name -/
theorem Spells.head {ls : List SourceLink} {body trail : Text} (h : Spells ls body)
    (htrail : isBlankOnly trail = true) : ∀ c ∈ (body ++ trail).head?, isNameChar c = false := by
  intro c hc
  have of_gap {gap rest : Text} (hgap : isBlankOnly gap = true) (hrest : ∀ c ∈ rest.head?, isNameChar c = false)
      (hc : c ∈ (gap ++ rest).head?) : isNameChar c = false := by
    cases gap with
    | nil => exact hrest c hc
    | cons d gap =>
      rw [isBlankOnly_cons, Bool.and_eq_true] at hgap
      rw [List.cons_append, List.head?_cons, Option.mem_some_iff] at hc
      exact hc ▸ isNameChar_of_isBlank hgap.1
  cases h with
  | nil => exact @of_gap trail [] htrail (by simp) (by simpa using hc)
  | @cons gap t rest link links hgap hlink _ =>
    obtain ⟨d, more, rfl, hd⟩ := hlink.head
    refine @of_gap gap ((d :: more) ++ (rest ++ trail)) hgap ?_ (by simpa using hc)
    intro e he
    rw [List.cons_append, List.head?_cons, Option.mem_some_iff] at he
    exact he ▸ (not_isBlank_mark (by tauto)).2

/-- the lexemes of a row of links with its calls numbered from `next` -/
def spelledLexemes (next : Nat) : List SourceLink → List Lexeme
  | [] => []
  | .access name :: rest => .mark '.' :: .name name :: spelledLexemes next rest
  | .call _ :: rest => .mark '(' :: .quoted (placeholder next) :: .mark ')' :: spelledLexemes (next + 1) rest

/-- a row of links with blanks behind it has the lexemes of these links -/
theorem skeletonLexemes_spells {body trail : Text} {ls : List SourceLink} (h : Spells ls body)
    (htrail : isBlankOnly trail = true) (next : Nat) :
    skeletonLexemes next (body ++ trail) = spelledLexemes next ls := by
  induction h generalizing next with
  | nil =>
    have : skeletonLexemes next (trail ++ []) = skeletonLexemes next [] := skeletonLexemes_gap htrail
    rwa [List.append_nil, skeletonLexemes_nil] at this
  | @cons gap t rest link links hgap hlink hrest ih =>
    have hassoc : gap ++ (t ++ rest) ++ trail = gap ++ (t ++ (rest ++ trail)) := by simp
    rw [hassoc, skeletonLexemes_gap hgap]
    cases hlink with
    | @access gap' name hgap' hne hname =>
      rw [List.cons_append, skeletonLexemes_mark (by decide) (by decide) (by decide) (by decide), List.append_assoc,
        skeletonLexemes_gap hgap', skeletonLexemes_name hne hname (hrest.head htrail), ih]
      rfl
    | @call payload hpayload =>
      have hsplit : '(' :: (payload ++ [')']) ++ (rest ++ trail) = '(' :: (payload ++ ')' :: (rest ++ trail)) := by simp
      rw [hsplit, skeletonLexemes_call hpayload, ih]; rfl

/-- the lexemes of a root name, none if it is empty -/
def rootLexemes (root : Text) : List Lexeme := if root = [] then [] else [.name root]

theorem skeletonLexemes_chain {root t : Text} {ls : List SourceLink} (h : SpelledChain root ls t) (next : Nat) :
    skeletonLexemes next t = rootLexemes root ++ spelledLexemes next ls := by
  obtain ⟨_, trail, rfl, htrail, lead, body, rfl, hlead, hroot, hbody⟩ := h
  have hsplit : lead ++ (root ++ body) ++ trail = lead ++ (root ++ (body ++ trail)) := by simp
  rw [hsplit, skeletonLexemes_gap hlead, rootLexemes]
  split
  · rename_i hempty
    rw [hempty, List.nil_append, skeletonLexemes_spells hbody htrail, List.nil_append]
  · rename_i hne
    rw [skeletonLexemes_name hne hroot (hbody.head htrail), skeletonLexemes_spells hbody htrail]; rfl

/-- as long as the indices stay below the limit, the lexemes of links are read as these links, numbered in order -/
theorem linksOf_spelledLexemes {skeleton : Text} {ls : List SourceLink} {next : Nat}
    (hlimit : next + (payloads ls).length ≤ Text.indexLimit) :
    linksOf skeleton (spelledLexemes next ls) = .ok (numbered next ls) := by
  induction ls generalizing next with
  | nil => rfl
  | cons link ls ih =>
    cases link with
    | access name => rw [spelledLexemes, linksOf, ih hlimit]; rfl
    | call payload =>
      rw [payloads, List.length_cons] at hlimit
      have hindex : placeholderIndex? (placeholder next) = some next := by
        rw [placeholderIndex?_placeholder, if_pos (by omega)]
      rw [spelledLexemes, linksOf, hindex]
      change (linksOf skeleton (spelledLexemes (next + 1) ls)).map _ = _
      rw [ih (by omega)]; rfl

theorem leadingName_chain (root : Text) (next : Nat) (ls : List SourceLink) :
    leadingName (rootLexemes root ++ spelledLexemes next ls) = (root, spelledLexemes next ls) := by
  rw [rootLexemes]
  split
  · rename_i hempty
    subst hempty
    rcases ls with _ | ⟨_ | _, ls⟩ <;> rfl
  · rfl

/-- **Spelled chains are read.** -/
theorem parse_of_spelled {root t : Text} {sources : List SourceLink} (h : SpelledChain root sources t) (offset : Nat)
    (hlimit : offset + (payloads sources).length ≤ Text.indexLimit) :
    parse (lift t offset).skeleton root = .ok (numbered offset sources) := by
  rw [parse_lift, skeletonLexemes_chain h, leadingName_chain, if_pos rfl]
  exact linksOf_spelledLexemes hlimit

/-! ## A text spells one chain -/

theorem spelledLexemes_injective {next : Nat} {as bs : List SourceLink}
    (hl : spelledLexemes next as = spelledLexemes next bs) (hp : payloads as = payloads bs) : as = bs := by
  induction as generalizing next bs with
  | nil => rcases bs with _ | ⟨_ | _, bs⟩ <;> first | rfl | cases hl
  | cons a as ih =>
    cases a with
    | access name =>
      rcases bs with _ | ⟨other | payload, bs⟩
      · cases hl
      · injection hl with _ hl
        injection hl with hname hl
        injection hname with hname
        rw [hname, ih hl hp]
      · cases hl
    | call payload =>
      rcases bs with _ | ⟨name | other, bs⟩
      · cases hl
      · cases hl
      · injection hl with _ hl
        injection hl with _ hl
        injection hl with _ hl
        injection hp with hpayload hp
        rw [hpayload, ih hl hp]

/-- a text is spelled by one row of links only -/
theorem SpelledChain.unique {root t : Text} {as bs : List SourceLink} (ha : SpelledChain root as t)
    (hb : SpelledChain root bs t) : as = bs := by
  -- the skeleton of the text gives the links but for the payloads, the lifted arguments give these
  have hlexemes : rootLexemes root ++ spelledLexemes 0 as = rootLexemes root ++ spelledLexemes 0 bs :=
    calc rootLexemes root ++ spelledLexemes 0 as
        = skeletonLexemes 0 t := (skeletonLexemes_chain ha 0).symm
      _ = rootLexemes root ++ spelledLexemes 0 bs := skeletonLexemes_chain hb 0
  have hpayloads : payloads as = payloads bs :=
    calc payloads as
        = (lift t 0).arguments.map Argument.raw := (raw_arguments_lift_chain ha 0).symm
      _ = payloads bs := raw_arguments_lift_chain hb 0
  exact spelledLexemes_injective (List.append_cancel_left hlexemes) hpayloads

/-- puts payloads back into the calls of links -/
def withPayloads : List Link → List Text → List SourceLink
  | .access name :: links, ps => .access name :: withPayloads links ps
  | .call _ :: links, p :: ps => .call p :: withPayloads links ps
  | _, _ => []

theorem withPayloads_numbered (next : Nat) (ls : List SourceLink) : withPayloads (numbered next ls) (payloads ls) = ls := by
  induction ls generalizing next with
  | nil => rfl
  | cons link ls ih =>
    cases link with
    | access name => exact congrArg _ (ih next)
    | call payload => exact congrArg _ (ih (next + 1))

/-- a text that is read as links, with their payloads as its arguments, is spelled by them -/
theorem spelled_of_read {root t : Text} {ls : List SourceLink}
    (hlinks : parse (lift t 0).skeleton root = .ok (numbered 0 ls))
    (hpayloads : (lift t 0).arguments.map Argument.raw = payloads ls) : SpelledChain root ls t := by
  obtain ⟨sources, hsources, hnumbered⟩ := spelled_of_parse hlinks
  have hsame : sources = ls :=
    calc sources
        = withPayloads (numbered 0 sources) (payloads sources) := (withPayloads_numbered 0 sources).symm
      _ = withPayloads (numbered 0 ls) (payloads ls) := by
          rw [hnumbered, ← hpayloads, raw_arguments_lift_chain hsources]
      _ = ls := withPayloads_numbered 0 ls
  exact hsame ▸ hsources

/-! ## Lifting and reading together -/

/-- **Front end round trip.** A text whose indices stay below the limit is read exactly when it is spelled as a chain of
this root. However it is spelled, the links are those of the spelling with their calls numbered in order from the
offset, and the arguments are the payloads of the calls, in order and character for character. -/
theorem parse_lift_iff (root t : Text) (offset : Nat)
    (hlimit : offset + (lift t offset).arguments.length < Text.indexLimit) :
    ((∃ links, parse (lift t offset).skeleton root = .ok links) ↔ ∃ sources, SpelledChain root sources t) ∧
      ∀ sources, SpelledChain root sources t →
        parse (lift t offset).skeleton root = .ok (numbered offset sources) ∧
          (lift t offset).arguments.map Argument.raw = payloads sources := by
  have of_spelled (sources : List SourceLink) (h : SpelledChain root sources t) :
      parse (lift t offset).skeleton root = .ok (numbered offset sources) ∧
        (lift t offset).arguments.map Argument.raw = payloads sources := by
    have harguments := arguments_lift_chain h offset
    rw [harguments, List.length_map] at hlimit
    refine ⟨parse_of_spelled h offset (Nat.le_of_lt hlimit), ?_⟩
    rw [harguments, map_raw_classify]
  refine ⟨⟨?_, ?_⟩, of_spelled⟩
  · intro hread
    obtain ⟨links, h⟩ := hread
    obtain ⟨sources, hsources, _⟩ := spelled_of_parse h
    exact ⟨sources, hsources⟩
  · intro hspelled
    obtain ⟨sources, h⟩ := hspelled
    exact ⟨_, (of_spelled sources h).1⟩

/-- a chain with blanks between its parts and a group inside an argument, numbered from 7 -/
theorem parse_lift_iff_nested :
    7 + (lift " SS .a (f(1)) .b(2)".toList 7).arguments.length < Text.indexLimit ∧
      ∃ sources, SpelledChain "SS".toList sources " SS .a (f(1)) .b(2)".toList ∧
        numbered 7 sources = [.access "a".toList, .call 7, .access "b".toList, .call 8] ∧
        payloads sources = ["f(1)".toList, "2".toList] := by
  have hlimit : 7 + (lift " SS .a (f(1)) .b(2)".toList 7).arguments.length < Text.indexLimit := by decide
  obtain ⟨hiff, hall⟩ := parse_lift_iff "SS".toList " SS .a (f(1)) .b(2)".toList 7 hlimit
  obtain ⟨sources, hsources⟩ := hiff.1 ⟨[.access "a".toList, .call 7, .access "b".toList, .call 8], rfl⟩
  obtain ⟨hlinks, hraw⟩ := hall sources hsources
  exact ⟨hlimit, sources, hsources, Except.ok.inj (hlinks.symm.trans rfl), hraw.symm.trans rfl⟩

/-- **Blanks at the end are allowed.** A chain with a blank behind its last link is read, though none of its parts
follows that blank. -/
theorem parse_lift_blank_at_end :
    (∃ links, parse (lift "SS.a ".toList 0).skeleton "SS".toList = .ok links) ∧
      ¬ ∃ sources, StrictChain "SS".toList sources "SS.a ".toList := by
  refine ⟨⟨[.access "a".toList], rfl⟩, ?_⟩
  intro hstrict
  obtain ⟨sources, lead, body, heq, _, _, hbody⟩ := hstrict
  -- a strict spelling ends with the root or with its last link, and neither ends with a blank
  have hlast : (lead ++ ("SS".toList ++ body)).getLast? = some ' ' := by rw [← heq]; rfl
  cases body with
  | nil =>
    rw [List.append_nil, List.getLast?_append_of_ne_nil _ (by decide)] at hlast
    exact absurd hlast (by decide)
  | cons c rest =>
    rw [← List.append_assoc, List.getLast?_append_of_ne_nil _ (List.cons_ne_nil c rest)] at hlast
    exact absurd (hbody.last ' ' hlast) (by decide)

end TerseStyle.Chain

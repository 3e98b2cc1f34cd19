/-
What expressions give. A string gives the text it stands for, a template its texts with what the expressions between them
give, a conditional expression one of its results; an object gives properties, the later of one name over the earlier.
What any other expression gives, and which tests hold, is left to a world, in which one expression may give different
things at different times.

Results:
- `stringValue_quoted`: a string written for a text gives that text.
- `cooked_escapeTemplate`: text escaped for a template gives that text with line feeds at its line ends.
- `evaluates_string_iff`, `evaluates_conditional_iff`, `evaluates_template_iff`: what strings, conditional expressions and
  templates give.
-/
import TerseStyle.Proofs.Script.Escaping
import TerseStyle.Proofs.Script.Quotation
import TerseStyle.Script.Print

namespace TerseStyle.Script

/-! ## Parts as text -/

/-- the first of the two codes that a character beyond the basic plane is written as -/
def highHalf (c : Char) : Nat := 0xD800 + (c.toNat - 0x10000) / 0x400

/-- the second of the two codes -/
def lowHalf (c : Char) : Nat := 0xDC00 + (c.toNat - 0x10000) % 0x400

/-- the text that parts of quoted text stand for, if there are no expressions between them and no half of a character is
alone -/
inductive StandsFor : List QuotedPart → Text → Prop
  | nil : StandsFor [] []
  | char {c : Char} {parts : List QuotedPart} {t : Text} : StandsFor parts t → StandsFor (.char c :: parts) (c :: t)
  | code {n : Nat} {c : Char} {parts : List QuotedPart} {t : Text} : n = c.toNat → StandsFor parts t →
      StandsFor (.code n :: parts) (c :: t)
  | halves {n m : Nat} {c : Char} {parts : List QuotedPart} {t : Text} : 0x10000 ≤ c.toNat → n = highHalf c →
      m = lowHalf c → StandsFor parts t → StandsFor (.code n :: .code m :: parts) (c :: t)

theorem standsFor_plainParts (t : Text) : StandsFor (plainParts t) t := by
  induction t with
  | nil => exact .nil
  | cons c t ih => exact .char ih

/-- a half is no character -/
theorem highHalf_ne_toNat (c d : Char) : highHalf c ≠ d.toNat := by
  unfold highHalf
  rcases c.valid with hc | hc <;> rcases d.valid with hd | hd <;> simp only [Char.toNat, UInt32.toNat] at * <;> omega

theorem halves_injective {c d : Char} (hc : 0x10000 ≤ c.toNat) (hd : 0x10000 ≤ d.toNat)
    (hhigh : highHalf c = highHalf d) (hlow : lowHalf c = lowHalf d) : c = d := by
  unfold highHalf at hhigh
  unfold lowHalf at hlow
  have hnat : c.toNat = d.toNat := by omega
  rw [← Char.ofNat_toNat c, hnat, Char.ofNat_toNat]

theorem StandsFor.unique {parts : List QuotedPart} {t u : Text} (h : StandsFor parts t) (h' : StandsFor parts u) :
    t = u := by
  induction h generalizing u with
  | nil =>
    cases h'
    rfl
  | char _ ih =>
    cases h' with
    | char h' => rw [ih h']
  | @code n c parts t hn _ ih =>
    cases h' with
    | @code _ d _ _ hn' h' =>
      have hcd : c = d := by rw [← Char.ofNat_toNat c, ← hn, hn', Char.ofNat_toNat]
      rw [ih h', hcd]
    | halves _ hhigh => exact absurd (hhigh.symm.trans hn) (highHalf_ne_toNat _ _)
  | halves hc hhigh hlow _ ih =>
    cases h' with
    | code hn => exact absurd (hhigh.symm.trans hn) (highHalf_ne_toNat _ _)
    | halves hd hhigh' hlow' h' =>
      rw [ih h', halves_injective hc hd (hhigh.symm.trans hhigh') (hlow.symm.trans hlow')]

/-! ## Strings -/

/-- a written string and the text that it gives -/
inductive StringValue : Text → Text → Prop
  | quoted {quote : Char} {body t : Text} {parts : List QuotedPart} : quote = '\'' ∨ quote = '"' →
      ReadsString quote body parts [] → StandsFor parts t → StringValue (quote :: body) t

theorem StringValue.unique {written t u : Text} (h : StringValue written t) (h' : StringValue written u) : t = u := by
  cases h with
  | @quoted quote _ _ _ hquote hreads hstands =>
    cases h' with
    | quoted _ hreads' hstands' =>
      have hslash : quote ≠ '\\' := by rcases hquote with rfl | rfl <;> decide
      obtain ⟨rfl, _⟩ := hreads.unique hslash hreads'
      exact hstands.unique hstands'

theorem readDigits?_append (digits : Text) (h : digits.all isHexDigit = true) (t : Text) :
    readDigits? digits.length (digits ++ t) = some ([.code (hexNumber digits)], t) := by
  simp [readDigits?, h]

/-- a control character is written as the two digits of its number -/
theorem hexDigits_control : ∀ n < 32, [hexDigit (n / 16), hexDigit (n % 16)].all isHexDigit = true ∧
    hexNumber [hexDigit (n / 16), hexDigit (n % 16)] = n := by
  decide

variable {quote : Char}

/-- what is written for one character stands for that character, in front of a text that does not go on with a digit -/
theorem readsString_escapeCharacter (hquote : quote = '\'' ∨ quote = '"') (follower : Option Char) (c : Char)
    {t rest : Text} {parts : List QuotedPart}
    (hdigit : t.head?.any Char.isDigit = true → follower.any Char.isDigit = true)
    (h : ReadsString quote t parts rest) :
    ∃ own, ReadsString quote (escapeCharacter quote follower c ++ t) (own ++ parts) rest ∧
      ∀ s, StandsFor parts s → StandsFor (own ++ parts) (c :: s) := by
  -- a character behind a backslash, or a code
  have hchar (d : Char) (hread : readEscape? (d :: t) = some ([.char c], t)) :
      ∃ own, ReadsString quote ('\\' :: d :: t) (own ++ parts) rest ∧
        ∀ s, StandsFor parts s → StandsFor (own ++ parts) (c :: s) :=
    ⟨[.char c], .escape hread h, fun _ hs => .char hs⟩
  have hcode (u : Text) (hread : readEscape? u = some ([.code c.toNat], t)) :
      ∃ own, ReadsString quote ('\\' :: u) (own ++ parts) rest ∧
        ∀ s, StandsFor parts s → StandsFor (own ++ parts) (c :: s) :=
    ⟨[.code c.toNat], .escape hread h, fun _ hs => .code rfl hs⟩
  have hplain (hne : c ≠ quote) (hslash : c ≠ '\\') (hfeed : c ≠ '\n') (hreturn : c ≠ '\r') :
      ∃ own, ReadsString quote (c :: t) (own ++ parts) rest ∧
        ∀ s, StandsFor parts s → StandsFor (own ++ parts) (c :: s) :=
    ⟨[.char c], .char hne hslash hfeed hreturn h, fun _ hs => .char hs⟩
  fun_cases escapeCharacter quote follower c with
  | case1 hspecial =>
    refine hchar _ ?_
    rcases hspecial with rfl | rfl
    · rcases hquote with rfl | rfl <;> rfl
    · rfl
  | case2 _ hc =>
    subst hc
    exact hchar 'n' rfl
  | case3 _ _ hc =>
    subst hc
    exact hchar 'r' rfl
  | case4 hspecial hfeed hreturn hc =>
    rw [not_or] at hspecial
    exact hplain hspecial.1 hspecial.2 hfeed hreturn
  | case5 _ _ _ _ hc =>
    subst hc
    exact hchar 'b' rfl
  | case6 _ _ _ _ _ hc =>
    subst hc
    exact hchar 'f' rfl
  | case7 _ _ _ _ _ _ hc =>
    subst hc
    exact hchar 'v' rfl
  | case8 _ _ _ _ _ _ _ hc =>
    subst hc
    exact hcode ('x' :: '0' :: '0' :: t) (readDigits?_append ['0', '0'] (by decide) t)
  | case9 _ _ _ _ _ _ _ hc hfollower =>
    subst hc
    refine hchar '0' ?_
    have : ¬ t.head?.any Char.isDigit = true := fun hd => hfollower (hdigit hd)
    simp only [readEscape?, this, Bool.false_eq_true, if_false]
  | case10 _ _ _ _ _ _ _ _ hcontrol =>
    obtain ⟨hhex, hnumber⟩ := hexDigits_control _ hcontrol
    have hread := readDigits?_append _ hhex t
    rw [hnumber] at hread
    exact hcode ('x' :: hexDigit (_ / 16) :: hexDigit (_ % 16) :: t) hread
  | case11 _ _ _ _ _ _ _ _ _ hc =>
    subst hc
    exact hcode ('u' :: "2028".toList ++ t) (readDigits?_append "2028".toList (by decide) t)
  | case12 _ _ _ _ _ _ _ _ _ _ hc =>
    subst hc
    exact hcode ('u' :: "2029".toList ++ t) (readDigits?_append "2029".toList (by decide) t)
  | case13 _ _ _ _ _ _ _ _ _ _ _ hc =>
    subst hc
    exact hcode ('u' :: "FEFF".toList ++ t) (readDigits?_append "FEFF".toList (by decide) t)
  | case14 hspecial hfeed hreturn =>
    rw [not_or] at hspecial
    exact hplain hspecial.1 hspecial.2 hfeed hreturn

/-- a character is written behind a backslash or by itself -/
theorem escapeCharacter_cases (quote : Char) (follower : Option Char) (c : Char) :
    (∃ more, escapeCharacter quote follower c = '\\' :: more) ∨ escapeCharacter quote follower c = [c] := by
  fun_cases escapeCharacter quote follower c <;> first | exact Or.inr rfl | exact Or.inl ⟨_, rfl⟩

/-- written text starts with a digit only if the text does -/
theorem isDigit_of_escapeString (hquote : quote = '\'' ∨ quote = '"') (value rest : Text)
    (h : (escapeString quote value ++ quote :: rest).head?.any Char.isDigit = true) :
    value.head?.any Char.isDigit = true := by
  cases value with
  | nil =>
    rw [escapeString, List.nil_append, List.head?_cons, Option.any_some] at h
    rcases hquote with rfl | rfl <;> exact absurd h (by decide)
  | cons c value =>
    rw [escapeString] at h
    rcases escapeCharacter_cases quote value.head? c with ⟨more, hslash⟩ | hself
    · rw [hslash, List.cons_append, List.cons_append, List.head?_cons, Option.any_some] at h
      exact absurd h (by decide)
    · rw [hself] at h
      exact h

/-- **A written string is read back**: behind the opening quote it stands for its text. -/
theorem readsString_escapeString (hquote : quote = '\'' ∨ quote = '"') (value rest : Text) :
    ∃ parts, ReadsString quote (escapeString quote value ++ quote :: rest) parts rest ∧ StandsFor parts value := by
  induction value with
  | nil => exact ⟨[], .close, .nil⟩
  | cons c value ih =>
    obtain ⟨parts, hreads, hstands⟩ := ih
    obtain ⟨own, hown, hbehind⟩ :=
      readsString_escapeCharacter hquote value.head? c (isDigit_of_escapeString hquote value rest) hreads
    rw [escapeString, List.append_assoc]
    exact ⟨own ++ parts, hown, hbehind value hstands⟩

/-- a string written for a text gives that text -/
theorem stringValue_quoted (value : Text) : StringValue (quoted value) value := by
  have hquote : quoteFor value = '\'' ∨ quoteFor value = '"' := by
    unfold quoteFor
    split
    · exact Or.inl rfl
    · exact Or.inr rfl
  obtain ⟨parts, hreads, hstands⟩ := readsString_escapeString hquote value []
  exact .quoted hquote hreads hstands

/-! ## Pieces of a template -/

/-- a written piece of a template and the text that it gives -/
def Cooked (piece t : Text) : Prop :=
  ∃ parts, ReadsTemplate .nested (piece ++ ['\x60']) parts [] ∧ StandsFor parts t

theorem Cooked.unique {piece t u : Text} (h : Cooked piece t) (h' : Cooked piece u) : t = u := by
  obtain ⟨parts, hreads, hstands⟩ := h
  obtain ⟨parts', hreads', hstands'⟩ := h'
  obtain ⟨rfl, _⟩ := hreads.unique hreads'
  exact hstands.unique hstands'

variable {X : ExpressionSyntax}

/-- what follows a carriage return is a line feed in escaped text only if it was one -/
theorem behindReturn_escapeTemplate {s t : Text} (hs : s.head? ≠ some '\n') (ht : t.head? ≠ some '\n') :
    behindReturn (escapeTemplate s ++ t) = escapeTemplate s ++ t := by
  have hhead : (escapeTemplate s ++ t).head? ≠ some '\n' := by
    cases s with
    | nil => exact ht
    | cons c s =>
      rw [escapeTemplate_cons]
      split
      · simp
      · simpa using hs
  unfold behindReturn
  split
  · rename_i heq
    exact absurd (by rw [heq]; rfl) hhead
  · rfl

/-- **Escaped text in a template** stands for itself, with line feeds at its line ends. -/
theorem readsTemplate_escapeTemplate (s : Text) {t rest : Text} {parts : List QuotedPart} (hbrace : t.head? ≠ some '{')
    (hfeed : t.head? ≠ some '\n') (h : ReadsTemplate X t parts rest) :
    ReadsTemplate X (escapeTemplate s ++ t) (plainParts (lineFeeds s) ++ parts) rest := by
  induction s using lineFeeds.induct with
  | case1 => exact h
  | case2 s ih => exact .lineEnd ih
  | case3 c s hnot ih =>
    rw [lineFeeds]
    · by_cases hreturn : c = '\r'
      · subst hreturn
        have hs : s.head? ≠ some '\n' := by
          intro hs
          obtain ⟨more, rfl⟩ := List.head?_eq_some_iff.1 hs
          exact hnot more rfl rfl
        have hwritten : escapeTemplate ('\r' :: s) = '\r' :: escapeTemplate s := by simp [escapeTemplate_cons]
        have hbehind := behindReturn_escapeTemplate hs hfeed
        rw [hwritten, if_pos rfl]
        exact .lineEnd (hbehind.symm ▸ ih)
      · rw [escapeTemplate_cons, if_neg hreturn]
        split
        · rename_i hspecial
          exact .special (by simp only [List.mem_cons, List.not_mem_nil, or_false]; tauto) ih
        · rename_i hplain
          rw [not_or, not_or, not_and] at hplain
          exact .char hplain.2.1 hplain.1 hreturn (fun hc => head?_escapeTemplate (hplain.2.2 hc) hbrace) ih
    · exact hnot

theorem cooked_escapeTemplate (t : Text) : Cooked (escapeTemplate t) (lineFeeds t) :=
  ⟨_, readsTemplate_escapeTemplate t (by decide) (by decide) .close, by
    rw [List.append_nil]
    exact standsFor_plainParts _⟩

/-- escaped text gives nothing else -/
theorem cooked_escapeTemplate_iff {t u : Text} : Cooked (escapeTemplate t) u ↔ u = lineFeeds t := by
  constructor
  · intro h
    exact h.unique (cooked_escapeTemplate t)
  · rintro rfl
    exact cooked_escapeTemplate t

/-! ## Expressions -/

/-- a string, and the value that its text has in a script; one that was not written anywhere is written when it is
printed -/
inductive StringNode : Node → Text → Prop
  | written {written t : Text} : StringValue written t → StringNode (.plain (.literal written) []) t
  | made {value t : Text} : StringValue (quoted value) t → StringNode (.plain (.string value) []) t

theorem StringNode.unique {e : Node} {t u : Text} (h : StringNode e t) (h' : StringNode e u) : t = u := by
  cases h with
  | written h =>
    cases h' with
    | written h' => exact h.unique h'
  | made h =>
    cases h' with
    | made h' => exact h.unique h'

/-- the properties of an object -/
abbrev Properties := Text → Option Text

/-- what expressions may give -/
structure World where
  /-- as text -/
  text : Node → Text → Prop
  /-- as a test -/
  truth : Node → Bool → Prop
  /-- as an object -/
  properties : Node → Properties → Prop

/-- whether the world tells what text an expression gives -/
def isForeign : Node → Bool
  | .plain .conditional _ => false
  | .plain (.template _) _ => false
  | .plain (.literal ('\'' :: _)) _ => false
  | .plain (.literal ('"' :: _)) _ => false
  | .plain (.string _) _ => false
  | _ => true

mutual

/-- the texts that an expression may give in a world -/
inductive Evaluates (W : World) : Node → Text → Prop
  | foreign {e : Node} {t : Text} : isForeign e = true → W.text e t → Evaluates W e t
  | string {e : Node} {t : Text} : StringNode e t → Evaluates W e t
  | conditional {test yes no : Node} {t : Text} {holds : Bool} : W.truth test holds →
      Evaluates W (if holds then yes else no) t → Evaluates W (.plain .conditional [test, yes, no]) t
  | template {pieces : List Text} {es : List Node} {t : Text} : EvaluatesPieces W pieces es t →
      Evaluates W (.plain (.template pieces) es) t

/-- the texts that pieces of a template and the expressions between them may give -/
inductive EvaluatesPieces (W : World) : List Text → List Node → Text → Prop
  | last {piece t : Text} : Cooked piece t → EvaluatesPieces W [piece] [] t
  | cons {piece t value rest : Text} {pieces : List Text} {e : Node} {es : List Node} : Cooked piece t →
      Evaluates W e value → EvaluatesPieces W pieces es rest →
      EvaluatesPieces W (piece :: pieces) (e :: es) (t ++ (value ++ rest))

end

variable {W : World}

theorem StringNode.isForeign {e : Node} {t : Text} (h : StringNode e t) : isForeign e = false := by
  cases h with
  | written h =>
    obtain ⟨rfl | rfl, -, -⟩ := h <;> rfl
  | made _ => rfl

/-- a string gives its value and nothing else -/
theorem evaluates_string_iff {e : Node} {t u : Text} (h : StringNode e u) : Evaluates W e t ↔ t = u := by
  constructor
  · intro ht
    cases ht with
    | foreign hforeign =>
      rw [h.isForeign] at hforeign
      cases hforeign
    | string h' => exact h'.unique h
    | conditional => cases h
    | template => cases h
  · rintro rfl
    exact .string h

theorem evaluates_conditional_iff {test yes no : Node} {t : Text} :
    Evaluates W (.plain .conditional [test, yes, no]) t ↔
      ∃ holds, W.truth test holds ∧ Evaluates W (if holds then yes else no) t := by
  constructor
  · intro h
    cases h with
    | foreign hforeign => cases hforeign
    | string h => cases h
    | conditional htruth h => exact ⟨_, htruth, h⟩
  · rintro ⟨holds, htruth, h⟩
    exact .conditional htruth h

theorem evaluates_template_iff {pieces : List Text} {es : List Node} {t : Text} :
    Evaluates W (.plain (.template pieces) es) t ↔ EvaluatesPieces W pieces es t := by
  constructor
  · intro h
    cases h with
    | foreign hforeign => cases hforeign
    | string h => cases h
    | template h => exact h
  · exact .template

/-! ## Objects -/

/-- a key of an object and the name of its property -/
inductive KeyName : Node → Text → Prop
  | word {name : Text} : KeyName (.plain (.word name) []) name
  | string {key : Node} {name : Text} : StringNode key name → KeyName key name

theorem KeyName.unique {key : Node} {name other : Text} (h : KeyName key name) (h' : KeyName key other) :
    name = other := by
  cases h with
  | word =>
    cases h' with
    | word => rfl
    | string h' => cases h'
  | string h =>
    cases h' with
    | word => cases h
    | string h' => exact h.unique h'

/-- written before a colon, this name is no property but the object that is inherited from -/
def inheritedName : Text := "__proto__".toList

/-- properties with one more over them -/
def assign (p : Properties) (name value : Text) : Properties :=
  if name = inheritedName then p else fun other => if other = name then some value else p other

/-- what one part of an object makes of the properties before it -/
inductive Extends (W : World) : Properties → Node → Properties → Prop
  | spread {e : Node} {p q : Properties} : W.properties e q →
      Extends W p (.plain .spread [e]) fun name => (q name).or (p name)
  | property {key value : Node} {name t : Text} {p : Properties} : KeyName key name → Evaluates W value t →
      Extends W p (.plain .property [key, value]) (assign p name t)

/-- what parts of an object make of the properties before them, one after the other -/
inductive ExtendsAll (W : World) : Properties → List Node → Properties → Prop
  | nil {p : Properties} : ExtendsAll W p [] p
  | cons {p q r : Properties} {part : Node} {parts : List Node} : Extends W p part q → ExtendsAll W q parts r →
      ExtendsAll W p (part :: parts) r

/-- the properties that an object may give -/
inductive ObjectGives (W : World) : Node → Properties → Prop
  | object {parts : List Node} {p : Properties} : ExtendsAll W (fun _ => none) parts p →
      ObjectGives W (.plain .object parts) p

end TerseStyle.Script

/-
Text pasted between quotes. A text in which the quote does not occur stands for itself as a string if it has no backslash
and no line end, and only then: any other text ends elsewhere, has no end, or stands for something else.

Results:
- `stringValue_pasted_iff`: which texts stand for themselves between quotes.
- `token_plainString`: the token at a string that stands for what is between its quotes.
-/
import TerseStyle.Proofs.Script.Evaluation
import TerseStyle.Script.Token

namespace TerseStyle.Script

/-- no backslash and no line end -/
def IsPlain (t : Text) : Prop := ∀ x ∈ t, x ≠ '\\' ∧ x ≠ '\n' ∧ x ≠ '\r'

instance : DecidablePred IsPlain := fun t => List.decidableBAll (fun x => x ≠ '\\' ∧ x ≠ '\n' ∧ x ≠ '\r') t

variable {quote : Char} {t rest : Text} {parts : List QuotedPart}

theorem readsString_plain (ht : IsPlain t) (hquote : quote ∉ t) (rest : Text) :
    ReadsString quote (t ++ quote :: rest) (plainParts t) rest := by
  induction t with
  | nil => exact .close
  | cons x t ih =>
    obtain ⟨⟨hslash, hfeed, hreturn⟩, ht⟩ := List.forall_mem_cons.1 ht
    rw [List.mem_cons, not_or] at hquote
    exact .char (Ne.symm hquote.1) hslash hfeed hreturn (ih ht hquote.2)

/-- an escape gives at most one character -/
theorem length_readEscape? {t t' : Text} {parts : List QuotedPart} (h : readEscape? t = some (parts, t')) :
    parts.length ≤ 1 := by
  have hdigits {n : Nat} {t : Text} (h : readDigits? n t = some (parts, t')) : parts.length ≤ 1 := by
    unfold readDigits? at h
    split at h <;> cases h
    exact Nat.le_refl _
  unfold readEscape? at h
  split at h
  · cases h
  · cases h
    exact Nat.zero_le _
  · exact hdigits h
  · unfold readBraced? at h
    simp only at h
    split at h
    · split at h <;> cases h
      exact Nat.le_refl _
    · cases h
  · exact hdigits h
  · split at h <;> cases h
    exact Nat.le_refl _
  · split at h
    · cases h
      exact Nat.zero_le _
    · split at h <;> cases h
      exact Nat.le_refl _

/-- a string has more characters than it gives, and no more than its quote if it has no escapes -/
theorem ReadsString.length_lt {body : Text} (h : ReadsString quote body parts rest) :
    parts.length + rest.length < body.length ∧
      (body.length = parts.length + rest.length + 1 → ∃ t, body = t ++ quote :: rest ∧ IsPlain t) := by
  induction h with
  | close => exact ⟨by simp, fun _ => ⟨[], rfl, by simp [IsPlain]⟩⟩
  | char _ hslash hfeed hreturn _ ih =>
    refine ⟨by simp only [List.length_cons]; omega, fun hlength => ?_⟩
    obtain ⟨t, rfl, ht⟩ := ih.2 (by simp only [List.length_cons] at hlength; omega)
    exact ⟨_ :: t, rfl, List.forall_mem_cons.2 ⟨⟨hslash, hfeed, hreturn⟩, ht⟩⟩
  | escape hread _ ih =>
    have hshort := length_readEscape? hread
    obtain ⟨x, more, rfl, _⟩ := readEscape?_cases hread
    simp only [List.length_cons, List.length_append] at ih ⊢
    exact ⟨by omega, fun hlength => by omega⟩

/-- a quote that does not close a string is behind a backslash, and stands for itself -/
theorem ReadsString.mem_of_quote (hquote : quote = '\'' ∨ quote = '"') {front behind : Text}
    (h : ReadsString quote (front ++ quote :: behind) parts rest) (hbehind : rest.length < behind.length) :
    .char quote ∈ parts := by
  generalize hbody : front ++ quote :: behind = body at h
  induction h generalizing front with
  | close =>
    have := congrArg List.length hbody
    simp only [List.length_append, List.length_cons] at this
    omega
  | char hne _ _ _ _ ih =>
    cases front with
    | nil => exact absurd (List.cons.inj hbody).1.symm hne
    | cons x front => exact List.mem_cons_of_mem _ (ih hbehind (List.cons.inj hbody).2)
  | @escape t t' rest escaped parts hread _ ih =>
    cases front with
    | nil =>
      obtain ⟨rfl, _⟩ := List.cons.inj hbody
      rcases hquote with h | h <;> cases h
    | cons x front =>
      obtain ⟨rfl, rfl⟩ := List.cons.inj hbody
      rw [List.mem_append]
      obtain ⟨y, more, ht, hmore⟩ := readEscape?_cases hread
      cases front with
      | nil =>
        left
        have hself : readEscape? (quote :: behind) = some ([.char quote], behind) := by
          rcases hquote with rfl | rfl <;> rfl
        cases hself.symm.trans hread
        exact List.mem_singleton.2 rfl
      | cons z front =>
        right
        have hapart : quote ∉ more := by
          intro hmem
          rcases hmore _ hmem with h | rfl | rfl | rfl
          · obtain ⟨hsingle, hdouble, _⟩ := isHexDigit_apart h
            exact hquote.elim hsingle hdouble
          all_goals rcases hquote with h | h <;> cases h
        rcases List.append_eq_append_iff.1 (List.cons.inj ht).2 with ⟨more', rfl, h⟩ | ⟨front', rfl, h⟩
        · cases more' with
          | nil => exact @ih [] hbehind h
          | cons w more' =>
            obtain ⟨rfl, _⟩ := List.cons.inj h
            exact absurd (List.mem_append_right front List.mem_cons_self) hapart
        · exact ih hbehind h.symm

theorem StandsFor.length_le (h : StandsFor parts t) : t.length ≤ parts.length := by
  induction h with
  | nil => exact Nat.le_refl _
  | char _ ih => exact Nat.succ_le_succ ih
  | code _ _ ih => exact Nat.succ_le_succ ih
  | halves _ _ _ _ ih => exact Nat.le_succ_of_le (Nat.succ_le_succ ih)

theorem StandsFor.mem {x : Char} (h : StandsFor parts t) (hx : .char x ∈ parts) : x ∈ t := by
  induction h with
  | nil => cases hx
  | char _ ih =>
    rcases List.mem_cons.1 hx with hx | hx
    · cases hx
      exact List.mem_cons_self
    · exact List.mem_cons_of_mem _ (ih hx)
  | code _ _ ih =>
    rcases List.mem_cons.1 hx with hx | hx
    · cases hx
    · exact List.mem_cons_of_mem _ (ih hx)
  | halves _ _ _ _ ih =>
    rcases List.mem_cons.1 hx with hx | hx
    · cases hx
    · rcases List.mem_cons.1 hx with hx | hx
      · cases hx
      · exact List.mem_cons_of_mem _ (ih hx)

/-- a plain text in quotes is a string that gives it -/
theorem stringValue_plain (hquote : quote = '\'' ∨ quote = '"') (ht : IsPlain t) (hnot : quote ∉ t) :
    StringValue (quote :: (t ++ [quote])) t :=
  .quoted hquote (readsString_plain ht hnot []) (standsFor_plainParts t)

/-- **Text pasted between quotes.** A text without the quote is given by a string that starts with it in quotes only if
the string is the text in quotes, and the text is plain. -/
theorem stringValue_pasted_iff (hquote : quote = '\'' ∨ quote = '"') (ht : quote ∉ t) {body : Text}
    (hbody : body <+: t ++ quote :: rest) :
    StringValue (quote :: body) t ↔ body = t ++ [quote] ∧ IsPlain t := by
  constructor
  · intro h
    cases h with
    | @quoted _ _ _ parts _ hreads hstands =>
      have hlength := hstands.length_le
      obtain ⟨hlt, hplain⟩ := hreads.length_lt
      rw [List.length_nil, Nat.add_zero] at hlt hplain
      obtain ⟨behind, hbehind⟩ := hbody
      have hshort : body.length ≤ t.length + 1 := by
        by_contra hlong
        -- the string goes on behind the quote that follows the text
        obtain ⟨front, hfront⟩ : t ++ [quote] <+: body := by
          refine List.prefix_of_prefix_length_le ⟨rest, ?_⟩ ⟨behind, hbehind⟩ ?_
          · rw [List.append_assoc, List.singleton_append]
          · rw [List.length_append, List.length_singleton]
            omega
        rw [← hfront, List.append_assoc, List.singleton_append] at hreads
        refine ht (hstands.mem (hreads.mem_of_quote hquote ?_))
        have := congrArg List.length hfront
        simp only [List.length_append, List.length_singleton] at this
        simp only [List.length_nil]
        omega
      obtain ⟨s, rfl, hs⟩ := hplain (by omega)
      rw [List.append_assoc, List.singleton_append] at hbehind
      rw [List.length_append, List.length_singleton] at hlt hshort
      obtain ⟨rfl, _⟩ := List.append_inj hbehind (by omega)
      exact ⟨rfl, hs⟩
  · rintro ⟨rfl, hplain⟩
    exact stringValue_plain hquote hplain ht

/-! ## Tokens -/

/-- a string that stands for what is between its quotes -/
def IsPlainString (w : Text) : Prop :=
  ∃ quote t, (quote = '\'' ∨ quote = '"') ∧ quote ∉ t ∧ IsPlain t ∧ w = quote :: (t ++ [quote])

theorem stringExtent_plain (ht : IsPlain t) (hquote : quote ∉ t) (hslash : quote ≠ '\\') (n : Nat) (rest : Text) :
    stringExtent quote n (t ++ quote :: rest) = .upTo (n + t.length + 1) := by
  induction t generalizing n with
  | nil =>
    rw [List.nil_append, stringExtent, if_pos rfl]
    · rfl
    · exact fun h _ => hslash h
    · exact fun _ h _ => hslash h
    · exact fun _ _ h _ => hslash h
  | cons x t ih =>
    obtain ⟨⟨hx, hfeed, hreturn⟩, ht⟩ := List.forall_mem_cons.1 ht
    rw [List.mem_cons, not_or] at hquote
    rw [List.cons_append, stringExtent, if_neg (Ne.symm hquote.1), if_neg (not_or.2 ⟨hfeed, hreturn⟩), ih ht hquote.2,
      List.length_cons]
    · congr 1
      omega
    · exact fun h _ => hx h
    · exact fun _ h _ => hx h
    · exact fun _ _ h _ => hx h

theorem token_quote (hquote : quote = '\'' ∨ quote = '"') (t : Text) :
    Token.read (quote :: t) = .ofExtent .string (quote :: t) (stringExtent quote 1 t) := by
  rcases hquote with rfl | rfl <;> rfl

/-- a string is written where its token is -/
theorem prefix_of_token_string {w : Text} (hquote : quote = '\'' ∨ quote = '"')
    (h : Token.read (quote :: t) = .string w) : w <+: quote :: t := by
  rw [token_quote hquote] at h
  unfold Token.ofExtent at h
  split at h
  · cases h
    exact List.take_prefix _ _
  · cases h

theorem token_plainString {w : Text} (h : IsPlainString w) (rest : Text) : Token.read (w ++ rest) = .string w := by
  obtain ⟨quote, t, hquote, ht, hplain, rfl⟩ := h
  have hslash : quote ≠ '\\' := by rcases hquote with rfl | rfl <;> decide
  have htext : quote :: (t ++ [quote]) ++ rest = quote :: (t ++ quote :: rest) := by simp
  rw [htext, token_quote hquote, stringExtent_plain hplain ht hslash, Token.ofExtent]
  congr 1
  rw [Nat.add_comm 1, Nat.add_assoc, List.take_succ_cons, List.take_length_add_append, List.take_succ_cons,
    List.take_zero]

/-! ## Templates -/

/-- plain text written for the body of a template is one piece of it -/
theorem templatePiece_escapeTemplate (read s rest : Text) :
    templatePiece read (escapeTemplate s ++ '\x60' :: rest) =
      .ok ⟨read.reverse ++ escapeTemplate s, read.length + (escapeTemplate s).length + 1, .closed⟩ := by
  fun_induction escapeTemplate s generalizing read with
  | case1 => simp [templatePiece]
  | case2 s ih =>
    simp [templatePiece, ih, isEscape]
    omega
  | case3 s ih =>
    simp [templatePiece, ih, isEscape]
    omega
  | case4 s hslash hinterp ih =>
    simp [templatePiece, ih, isEscape]
    omega
  | case5 x s hslash hinterp hback ih =>
    have hopen (rest' : Text) (hx : x = '$') (h : escapeTemplate s ++ '\x60' :: rest = '{' :: rest') : False := by
      refine head?_escapeTemplate (t := '\x60' :: rest) ?_ (by simp) (by rw [h]; rfl)
      intro hbrace
      obtain ⟨more, rfl⟩ := List.head?_eq_some_iff.1 hbrace
      exact hinterp more hx rfl
    rw [List.cons_append, templatePiece, if_neg hback, ih]
    · simp
      omega
    · exact fun _ _ hx _ => hslash hx
    · exact hopen

end TerseStyle.Script

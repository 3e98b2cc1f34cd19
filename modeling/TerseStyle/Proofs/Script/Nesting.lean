/-
Code seen by its brackets. Brackets pair up in the code of a script, but only outside of its literals: a string may hold
any of them. What a literal is, is left open; of strings the end can be told by quotes and backslashes alone.

Results:
- `StringBody.unique`: a string ends at one place.
- `Nested.unique`: with strings for literals, code between brackets ends at one place.
- `Nested.trim`: the blanks around code belong to none of its brackets.
-/
import Mathlib.Data.List.Induction
import TerseStyle.Proofs.Text.Basic

namespace TerseStyle.Script

open Text (isBlankOnly isBlankOnly_cons)

/-! ## Strings -/

/-- what stands between the quotes of a string; a backslash takes the next character along, whatever it is -/
inductive StringBody (quote : Char) : Text → Prop
  | nil : StringBody quote []
  | plain {c : Char} {t : Text} : c ≠ quote → c ≠ '\\' → StringBody quote t → StringBody quote (c :: t)
  | escape {c : Char} {t : Text} : StringBody quote t → StringBody quote ('\\' :: c :: t)

/-- a string ends at the first quote that no backslash takes along -/
theorem StringBody.unique {quote : Char} (hquote : quote ≠ '\\') {a b x y : Text} (ha : StringBody quote a)
    (hb : StringBody quote b) (h : a ++ quote :: x = b ++ quote :: y) : a = b := by
  induction ha generalizing b with
  | nil =>
    cases hb with
    | nil => rfl
    | plain hne => exact absurd (List.cons.inj h).1.symm hne
    | escape => exact absurd (List.cons.inj h).1 hquote
  | plain hne hslash _ ih =>
    cases hb with
    | nil => exact absurd (List.cons.inj h).1 hne
    | plain _ _ hb =>
      obtain ⟨rfl, hrest⟩ := List.cons.inj h
      rw [ih hb hrest]
    | escape => exact absurd (List.cons.inj h).1 hslash
  | escape _ ih =>
    cases hb with
    | nil => exact absurd (List.cons.inj h).1.symm hquote
    | plain _ hslash => exact absurd (List.cons.inj h).1.symm hslash
    | escape hb =>
      obtain ⟨rfl, hrest⟩ := List.cons.inj (List.cons.inj h).2
      rw [ih hb hrest]

/-- strings with their quotes -/
inductive StringLiteral : Text → Prop
  | quoted {quote : Char} {body : Text} : quote = '\'' ∨ quote = '"' → StringBody quote body →
      StringLiteral (quote :: (body ++ [quote]))

/-! ## Brackets -/

/-- what a character does in code -/
inductive CharKind where
  | plain
  | quote
  | opening (partner : Char)
  | closing
  deriving DecidableEq

/-- the kind of a character -/
def charKind : Char → CharKind
  | '(' => .opening ')'
  | '[' => .opening ']'
  | '{' => .opening '}'
  | ')' => .closing
  | ']' => .closing
  | '}' => .closing
  | '\'' => .quote
  | '"' => .quote
  | '\x60' => .quote
  | _ => .plain

theorem charKind_partner {c partner : Char} (h : charKind c = .opening partner) : charKind partner = .closing := by
  unfold charKind at h
  split at h <;> cases h <;> rfl

theorem charKind_of_isBlank {c : Char} (h : isBlank c = true) : charKind c = .plain := by
  unfold charKind
  split <;> first | rfl | exact absurd h (by decide)

/-- code in which every bracket outside of literals has its partner -/
inductive Nested (Literal : Text → Prop) : Text → Prop
  | nil : Nested Literal []
  | plain {c : Char} {t : Text} : charKind c = .plain → Nested Literal t → Nested Literal (c :: t)
  | literal {l t : Text} : Literal l → Nested Literal t → Nested Literal (l ++ t)
  | group {c partner : Char} {inner rest : Text} : charKind c = .opening partner → Nested Literal inner →
      Nested Literal rest → Nested Literal (c :: (inner ++ partner :: rest))

namespace Nested

variable {Literal : Text → Prop} {s : Text}

theorem of_literal (h : Literal s) : Nested Literal s := by
  have := Nested.literal h .nil
  rwa [List.append_nil] at this

theorem of_plain (h : (s.all fun c => charKind c = .plain) = true) : Nested Literal s := by
  induction s with
  | nil => exact .nil
  | cons c s ih =>
    rw [List.all_cons, Bool.and_eq_true, decide_eq_true_iff] at h
    exact .plain h.1 (ih h.2)

end Nested

/-! ## Where code ends -/

/-- a text in front of which code ends: nothing, or one that starts with a closing bracket -/
def EndsCode (t : Text) : Prop := ∀ c ∈ t.head?, charKind c = .closing

theorem endsCode_nil : EndsCode [] := by
  intro c hc
  cases hc

theorem endsCode_cons {c : Char} (h : charKind c = .closing) (t : Text) : EndsCode (c :: t) := by
  intro d hd
  obtain rfl : c = d := by simpa using hd
  exact h

theorem StringLiteral.head {l : Text} (h : StringLiteral l) : ∃ c t, l = c :: t ∧ charKind c = .quote := by
  cases h with
  | quoted hquote => exact ⟨_, _, rfl, by rcases hquote with rfl | rfl <;> rfl⟩

theorem StringLiteral.last {l : Text} (h : StringLiteral l) : ∃ t c, l = t ++ [c] ∧ charKind c = .quote := by
  cases h with
  | @quoted quote body hquote => exact ⟨quote :: body, quote, rfl, by rcases hquote with rfl | rfl <;> rfl⟩

/-- two strings in front of texts are the same -/
theorem StringLiteral.unique {k l x y : Text} (hk : StringLiteral k) (hl : StringLiteral l) (h : k ++ x = l ++ y) :
    k = l := by
  cases hk with
  | @quoted quote body hquote hbody =>
    cases hl with
    | @quoted quote' body' _ hbody' =>
      rw [List.cons_append, List.cons_append, List.append_assoc, List.append_assoc] at h
      obtain ⟨rfl, hrest⟩ := List.cons.inj h
      have hslash : quote ≠ '\\' := by rcases hquote with rfl | rfl <;> decide
      rw [hbody.unique hslash hbody' hrest]

namespace Nested

variable {a b x y t : Text}

/-- where code ends, no code starts -/
theorem eq_nil_of_endsCode (h : Nested StringLiteral a) (hx : EndsCode (a ++ x)) : a = [] := by
  have hclosing (c : Char) (rest : Text) (ha : a = c :: rest) : charKind c = .closing := hx c (by rw [ha]; rfl)
  cases h with
  | nil => rfl
  | plain hc =>
    rw [hclosing _ _ rfl] at hc
    cases hc
  | literal hl =>
    obtain ⟨c, rest, rfl, hc⟩ := hl.head
    rw [hclosing c _ rfl] at hc
    cases hc
  | group hc =>
    rw [hclosing _ _ rfl] at hc
    cases hc

/-- **Code ends at one place.** Of two pieces of code in front of texts where code ends, none goes on behind the
other. -/
theorem unique (ha : Nested StringLiteral a) (hb : Nested StringLiteral b) (hx : EndsCode x) (hy : EndsCode y)
    (h : a ++ x = b ++ y) : a = b := by
  induction ha generalizing b x y with
  | nil =>
    rw [List.nil_append] at h
    exact (hb.eq_nil_of_endsCode (by rwa [← h])).symm
  | @plain c t hc ht ih =>
    cases hb with
    | nil =>
      rw [List.nil_append] at h
      exact (ht.plain hc).eq_nil_of_endsCode (by rwa [h])
    | plain hd hb =>
      obtain ⟨rfl, hrest⟩ := List.cons.inj h
      rw [ih hb hx hy hrest]
    | literal hl =>
      obtain ⟨d, rest, rfl, hd⟩ := hl.head
      rw [← (List.cons.inj h).1, hc] at hd
      cases hd
    | group hd =>
      rw [← (List.cons.inj h).1, hc] at hd
      cases hd
  | @literal l t hl ht ih =>
    cases hb with
    | nil =>
      rw [List.nil_append] at h
      exact (ht.literal hl).eq_nil_of_endsCode (by rwa [h])
    | plain hd =>
      obtain ⟨c, rest, rfl, hc⟩ := hl.head
      rw [← (List.cons.inj h).1, hc] at hd
      cases hd
    | literal hl' hb =>
      rw [List.append_assoc, List.append_assoc] at h
      obtain rfl := hl.unique hl' h
      rw [ih hb hx hy (List.append_cancel_left h)]
    | group hd =>
      obtain ⟨c, rest, rfl, hc⟩ := hl.head
      rw [← (List.cons.inj h).1, hc] at hd
      cases hd
  | @group c partner inner rest hc hinner hrest ihInner ihRest =>
    cases hb with
    | nil =>
      rw [List.nil_append] at h
      exact (hinner.group hc hrest).eq_nil_of_endsCode (by rwa [h])
    | plain hd =>
      rw [← (List.cons.inj h).1, hc] at hd
      cases hd
    | literal hl =>
      obtain ⟨d, more, rfl, hd⟩ := hl.head
      rw [← (List.cons.inj h).1, hc] at hd
      cases hd
    | @group d partner' inner' rest' hd hinner' hrest' =>
      rw [List.cons_append, List.cons_append, List.append_assoc, List.append_assoc] at h
      obtain ⟨rfl, hgroup⟩ := List.cons.inj h
      obtain rfl : partner = partner' := by rw [hc] at hd; cases hd; rfl
      have hclosing := charKind_partner hc
      obtain rfl := ihInner hinner' (endsCode_cons hclosing _) (endsCode_cons hclosing _) hgroup
      rw [ihRest hrest' hx hy (List.cons.inj (List.append_cancel_left hgroup)).2]

/-- code does not go on behind a closing bracket -/
theorem not_append_closing (ha : Nested StringLiteral a) {c : Char} (hc : charKind c = .closing) (t : Text) :
    ¬ Nested StringLiteral (a ++ c :: t) := by
  intro hb
  have heq : a = a ++ c :: t := ha.unique hb (endsCode_cons hc t) endsCode_nil (List.append_nil _).symm
  have := congrArg List.length heq
  simp at this

/-! ## Blanks around code -/

theorem of_blank {c : Char} (hc : isBlank c = true) (h : Nested StringLiteral (c :: t)) : Nested StringLiteral t := by
  have hkind := charKind_of_isBlank hc
  generalize hu : c :: t = u at h
  cases h with
  | nil => cases hu
  | plain _ ht =>
    obtain ⟨rfl, rfl⟩ := List.cons.inj hu
    exact ht
  | literal hl =>
    obtain ⟨d, rest, rfl, hd⟩ := hl.head
    obtain ⟨rfl, _⟩ := List.cons.inj hu
    rw [hkind] at hd
    cases hd
  | group hd =>
    obtain ⟨rfl, _⟩ := List.cons.inj hu
    rw [hkind] at hd
    cases hd

theorem of_blank_behind {c : Char} (hc : isBlank c = true) (h : Nested StringLiteral (t ++ [c])) :
    Nested StringLiteral t := by
  have hkind := charKind_of_isBlank hc
  -- the last constructor ends with a closing bracket or a quote, unless it ends with a character that can be left out
  generalize hu : t ++ [c] = u at h
  induction h generalizing t with
  | nil => simp at hu
  | @plain d u hd hrest ih =>
    cases t with
    | nil => exact .nil
    | cons e t =>
      obtain ⟨rfl, hmore⟩ := List.cons.inj hu
      exact .plain hd (ih hmore)
  | @literal l u hl hrest ih =>
    rcases List.eq_nil_or_concat u with rfl | ⟨front, d, rfl⟩
    · obtain ⟨front, d, rfl, hd⟩ := hl.last
      rw [List.append_nil] at hu
      obtain ⟨_, hsame⟩ := List.append_inj' hu rfl
      rw [← List.singleton_inj.1 hsame, hkind] at hd
      cases hd
    · rw [List.concat_eq_append] at hu ih
      rw [← List.append_assoc] at hu
      obtain ⟨rfl, hsame⟩ := List.append_inj' hu rfl
      exact .literal hl (ih (by rw [hsame]))
  | @group d partner inner rest hd hinner hrest _ ih =>
    rcases List.eq_nil_or_concat rest with rfl | ⟨front, e, rfl⟩
    · obtain ⟨_, hsame⟩ := List.append_inj' (show t ++ [c] = (d :: inner) ++ [partner] from hu) rfl
      have hclosing := charKind_partner hd
      rw [← List.singleton_inj.1 hsame, hkind] at hclosing
      cases hclosing
    · have hassoc : d :: (inner ++ partner :: (front ++ [e])) = (d :: (inner ++ partner :: front)) ++ [e] := by simp
      rw [List.concat_eq_append] at hu ih
      rw [hassoc] at hu
      obtain ⟨rfl, hsame⟩ := List.append_inj' hu rfl
      exact .group hd hinner (ih (by rw [hsame]))

theorem trim (h : Nested StringLiteral t) : Nested StringLiteral (Text.trim t) := by
  obtain ⟨lead, trail, heq, hlead, htrail⟩ := Text.exists_trim t
  rw [heq] at h
  generalize Text.trim t = core at h ⊢
  have hfront : Nested StringLiteral (core ++ trail) := by
    clear heq
    induction lead with
    | nil => exact h
    | cons c lead ih =>
      rw [isBlankOnly_cons, Bool.and_eq_true] at hlead
      exact ih hlead.2 (h.of_blank hlead.1)
  clear heq h
  induction trail using List.reverseRecOn with
  | nil => rwa [List.append_nil] at hfront
  | append_singleton trail c ih =>
    rw [Text.isBlankOnly_append, Bool.and_eq_true] at htrail
    have hc : isBlank c = true := by simpa [isBlankOnly] using htrail.2
    rw [← List.append_assoc] at hfront
    exact ih htrail.1 (hfront.of_blank_behind hc)

end Nested

end TerseStyle.Script

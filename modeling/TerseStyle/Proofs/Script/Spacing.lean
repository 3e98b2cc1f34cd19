/-
Spacing: the white space, line ends and comments that may stand between two tokens. Every comment in it is ended, one that
runs to the end of its line by that end; so a token behind spacing is never taken for a part of it.

Results:
- `Spacing.rest`: what a reader skips in front of a token is the spacing in front of it.
- `Spacing.unique`: spacing in front of a token ends at one place.
- `Spacing.trimLeft`: spacing without the blanks in front is spacing.
-/
import Mathlib.Data.List.DropRight
import TerseStyle.Proofs.Text.Basic
import TerseStyle.Script.Trivia

namespace TerseStyle.Script

/-- white space and line ends -/
def isGap (c : Char) : Bool := isLineBreak c || isSpace c

/-- white space, line ends and comments that are ended -/
inductive Spacing : Text → Prop
  | nil : Spacing []
  | gap {c : Char} {t : Text} (hc : isGap c = true) (h : Spacing t) : Spacing (c :: t)
  | line {body t : Text} {c : Char} (hbody : ∀ d ∈ body, isLineBreak d = false) (hc : isLineBreak c = true)
      (h : Spacing t) : Spacing ('/' :: '/' :: (body ++ c :: t))
  | block {body t : Text} (hbody : ¬ ['*', '/'] <:+: body) (h : Spacing t) :
      Spacing ('/' :: '*' :: (body ++ '*' :: '/' :: t))

/-- a text that starts with a token, or is empty -/
structure StartsToken (t : Text) : Prop where
  head : ∀ c ∈ t.head?, isGap c = false
  line : ¬ ['/', '/'] <+: t
  block : ¬ ['/', '*'] <+: t

variable {l k s t : Text}

theorem startsToken_nil : StartsToken [] := ⟨by simp, by simp, by simp⟩

/-- most characters start a token -/
theorem startsToken_cons {c : Char} (hgap : isGap c = false) (hslash : c ≠ '/') (t : Text) : StartsToken (c :: t) := by
  refine ⟨by simpa using hgap, ?_, ?_⟩
  · rintro ⟨more, h⟩
    exact hslash (List.cons.inj h).1.symm
  · rintro ⟨more, h⟩
    exact hslash (List.cons.inj h).1.symm

namespace Spacing

theorem append (hl : Spacing l) (hk : Spacing k) : Spacing (l ++ k) := by
  induction hl with
  | nil => exact hk
  | gap hc _ ih => exact .gap hc ih
  | line hbody hc _ ih =>
    rw [List.cons_append, List.cons_append, List.append_assoc, List.cons_append]
    exact .line hbody hc ih
  | block hbody _ ih =>
    rw [List.cons_append, List.cons_append, List.append_assoc, List.cons_append, List.cons_append]
    exact .block hbody ih

end Spacing

/-! ## What a reader skips -/

namespace Trivia

theorem slash_of_isGap {c : Char} (hc : isGap c = true) : c ≠ '/' := by
  rintro rfl
  exact absurd hc (by decide)

theorem scan_gap {c : Char} (hc : isGap c = true) (before : Trivia) (t : Text) :
    ∃ after, scan .between before (c :: t) = scan .between after t := by
  have hslash := slash_of_isGap hc
  rw [scan]
  · split
    · exact ⟨_, rfl⟩
    · rename_i hbreak
      have hspace : isSpace c = true := by simpa [isGap, hbreak] using hc
      rw [if_pos hspace]
      exact ⟨_, rfl⟩
  · exact fun _ h => absurd h hslash
  · exact fun _ h => absurd h hslash

theorem scan_line {body : Text} {c : Char} (hbody : ∀ d ∈ body, isLineBreak d = false) (hc : isLineBreak c = true)
    (taken : Text) (own : Bool) (before : Trivia) (t : Text) :
    ∃ after, scan (.line taken own) before (body ++ c :: t) = scan .between after t := by
  induction body generalizing taken before with
  | nil =>
    rw [List.nil_append, scan, if_pos hc]
    exact ⟨_, rfl⟩
  | cons d body ih =>
    have hd := hbody d List.mem_cons_self
    rw [List.cons_append, scan, if_neg (by rw [hd]; decide)]
    exact ih (fun e he => hbody e (List.mem_cons_of_mem d he)) _ _

theorem scan_block {body : Text} (hbody : ¬ ['*', '/'] <:+: body) (taken : Text) (own : Bool) (before : Trivia)
    (t : Text) : ∃ after, scan (.block taken own) before (body ++ '*' :: '/' :: t) = scan .between after t := by
  induction body generalizing taken before with
  | nil => exact ⟨_, rfl⟩
  | cons d body ih =>
    have hrest : ¬ ['*', '/'] <:+: body := fun h => hbody (h.trans (List.suffix_cons d body).isInfix)
    rw [List.cons_append, scan]
    · exact ih hrest _ _
    · -- a star and a slash here would end the comment before its end
      intro rest hd hslash
      cases body with
      | nil => cases hslash
      | cons e body =>
        obtain ⟨rfl, _⟩ := List.cons.inj hslash
        exact hbody ⟨[], body, by rw [hd]; rfl⟩

theorem scan_spacing (hl : Spacing l) (before : Trivia) (t : Text) :
    ∃ after, scan .between before (l ++ t) = scan .between after t := by
  induction hl generalizing before with
  | nil => exact ⟨before, rfl⟩
  | @gap c k hc _ ih =>
    obtain ⟨mid, hmid⟩ := scan_gap hc before (k ++ t)
    obtain ⟨after, hafter⟩ := ih mid
    exact ⟨after, hmid.trans hafter⟩
  | @line body k c hbody hc _ ih =>
    obtain ⟨mid, hmid⟩ := scan_line hbody hc [] before.lineBreak { before with skipped := before.skipped + 2 } (k ++ t)
    obtain ⟨after, hafter⟩ := ih mid
    refine ⟨after, Eq.trans ?_ (hmid.trans hafter)⟩
    rw [List.cons_append, List.cons_append, List.append_assoc]
    rfl
  | @block body k hbody _ ih =>
    obtain ⟨mid, hmid⟩ := scan_block hbody [] before.lineBreak { before with skipped := before.skipped + 2 } (k ++ t)
    obtain ⟨after, hafter⟩ := ih mid
    refine ⟨after, Eq.trans ?_ (hmid.trans hafter)⟩
    rw [List.cons_append, List.cons_append, List.append_assoc]
    rfl

theorem scan_token (h : StartsToken t) (before : Trivia) : (scan .between before t).rest = t := by
  obtain ⟨hhead, hline, hblock⟩ := h
  cases t with
  | nil => rfl
  | cons c t =>
    have hgap : isGap c = false := hhead c rfl
    rw [isGap, Bool.or_eq_false_iff] at hgap
    rw [scan]
    · simp only [hgap.1, hgap.2, Bool.false_eq_true, if_false]
    · rintro rest rfl rfl
      exact hline ⟨rest, rfl⟩
    · rintro rest rfl rfl
      exact hblock ⟨rest, rfl⟩

end Trivia

namespace Spacing

/-- what a reader skips in front of a token is the spacing there -/
theorem rest (hl : Spacing l) (ht : StartsToken t) : (Trivia.of (l ++ t)).rest = t := by
  obtain ⟨after, hafter⟩ := Trivia.scan_spacing hl ⟨[], false, 0, []⟩ t
  rw [Trivia.of, hafter, Trivia.scan_token ht]

/-- spacing in front of a token ends at one place -/
theorem unique (hl : Spacing l) (hk : Spacing k) (hs : StartsToken s) (ht : StartsToken t) (h : l ++ s = k ++ t) :
    l = k ∧ s = t := by
  have hrest : s = t := by rw [← hl.rest hs, h, hk.rest ht]
  subst hrest
  exact ⟨List.append_cancel_right h, rfl⟩

end Spacing

/-! ## Trimming -/

/-- drops the blanks behind -/
def trimRight (t : Text) : Text := t.rdropWhile isBlank

theorem trimRight_trimRight (t : Text) : trimRight (trimRight t) = trimRight t := List.rdropWhile_idempotent isBlank t

theorem isBlank_of_isLineBreak {c : Char} (h : isLineBreak c = true) : isBlank c = true := by
  simp only [isLineBreak, Bool.or_eq_true, decide_eq_true_eq] at h
  rcases h with ((rfl | rfl) | rfl) | rfl <;> decide

theorem trimLeft_append {core : Text} (hne : core ≠ []) (hcore : ∀ c ∈ core.head?, isBlank c = false) (lead : Text) :
    Text.trimLeft (lead ++ core) = Text.trimLeft lead ++ core := by
  induction lead with
  | nil =>
    obtain ⟨c, rest, rfl⟩ := List.exists_cons_of_ne_nil hne
    have hc : isBlank c = false := hcore c rfl
    simp [Text.trimLeft, hc]
  | cons c lead ih =>
    rw [Text.trimLeft] at ih ⊢
    rw [List.cons_append, List.dropWhile_cons, Text.trimLeft, List.dropWhile_cons]
    split
    · exact ih
    · rfl

/-- trimming stops at what is not blank, on both sides -/
theorem trim_around {core : Text} (hne : core ≠ []) (hhead : ∀ c ∈ core.head?, isBlank c = false)
    (hlast : ∀ c ∈ core.getLast?, isBlank c = false) (lead trail : Text) :
    Text.trim (lead ++ (core ++ trail)) = Text.trimLeft lead ++ (core ++ trimRight trail) := by
  have hfront : ∀ c ∈ (core ++ trail).head?, isBlank c = false := by
    intro c hc
    rw [List.head?_append_of_ne_nil core hne] at hc
    exact hhead c hc
  have hback : ∀ c ∈ (core.reverse ++ (Text.trimLeft lead).reverse).head?, isBlank c = false := by
    intro c hc
    rw [List.head?_append_of_ne_nil _ (by simpa using hne), List.head?_reverse] at hc
    exact hlast c hc
  rw [Text.trim, trimLeft_append (by simp [hne]) hfront, List.reverse_append, List.reverse_append, List.append_assoc,
    trimLeft_append (by simp [hne]) hback, trimRight, List.rdropWhile, ← Text.trimLeft]
  simp

namespace Spacing

/-- spacing without the blanks in front is spacing -/
theorem trimLeft (hl : Spacing l) : Spacing (Text.trimLeft l) := by
  induction hl with
  | nil => exact .nil
  | @gap c t hc ht ih =>
    rw [Text.trimLeft, List.dropWhile_cons]
    split
    · exact ih
    · exact .gap hc ht
  | line hbody hc h _ => exact .line hbody hc h
  | block hbody h _ => exact .block hbody h

end Spacing

end TerseStyle.Script

/-
Where the calls of a chain end. In a script, a call ends at the parenthesis that pairs with its own, and parentheses in
the literals of its argument do not count; lifting counts every parenthesis. The two agree exactly when the parentheses
of each argument pair up with those in literals counted. A literal with a parenthesis of its own can move the end of its
call into a later one, even if there are as many closing as opening parentheses in the whole chain.

Results:
- `balanced_of_mem_arguments`: whatever is lifted, in any text, is balanced.
- `lift_boundaries`: lifting finds the calls of a chain exactly when their arguments are balanced.
-/
import TerseStyle.Proofs.Chain.FrontEnd
import TerseStyle.Proofs.Script.Nesting
import TerseStyle.Script.Standard

namespace TerseStyle.Chain

open Script (Nested StringBody StringLiteral charKind)
open Text (isBlankOnly)

/-! ## Calls as a script has them -/

/-- the texts with these arguments, each the code between the parentheses of a call; what stands between the calls has
no parentheses -/
inductive Calls (Code : Text → Prop) : List Text → Text → Prop
  | nil : Calls Code [] []
  | between {c : Char} {ps : List Text} {t : Text} : c ≠ '(' → c ≠ ')' → Calls Code ps t → Calls Code ps (c :: t)
  | call {p t : Text} {ps : List Text} : Code p → Calls Code ps t → Calls Code (p :: ps) ('(' :: (p ++ ')' :: t))

/-- the texts of a row of links whose arguments are code -/
inductive ScriptLinks (Code : Text → Prop) : List SourceLink → Text → Prop
  | nil : ScriptLinks Code [] []
  | access {gap t rest : Text} {name : Text} {links : List SourceLink} : isBlankOnly gap = true →
      (SourceLink.access name).Spelled t → ScriptLinks Code links rest →
      ScriptLinks Code (.access name :: links) (gap ++ (t ++ rest))
  | call {gap payload rest : Text} {links : List SourceLink} : isBlankOnly gap = true → Code payload →
      ScriptLinks Code links rest →
      ScriptLinks Code (.call payload :: links) (gap ++ ('(' :: (payload ++ [')']) ++ rest))

/-- the texts of a chain whose arguments are code, with optional blanks around it -/
def ScriptChain (Code : Text → Prop) (root : Text) (links : List SourceLink) (t : Text) : Prop :=
  ∃ lead body trail, t = lead ++ (root ++ body) ++ trail ∧ isBlankOnly lead = true ∧ isBlankOnly trail = true ∧
    (∀ c ∈ root, isNameChar c = true) ∧ ScriptLinks Code links body

variable {Code Literal : Text → Prop} {calls : List Text} {links : List SourceLink} {t : Text}

theorem Calls.of_balanced (h : Calls Code calls t) (hbalanced : ∀ p ∈ calls, Balanced p) : Calls Balanced calls t := by
  induction h with
  | nil => exact .nil
  | between hopen hclose _ ih => exact .between hopen hclose (ih hbalanced)
  | call _ _ ih =>
    exact .call (hbalanced _ List.mem_cons_self) (ih fun p hp => hbalanced p (List.mem_cons_of_mem _ hp))

theorem ScriptLinks.spells (h : ScriptLinks Code links t) (hbalanced : ∀ p ∈ payloads links, Balanced p) :
    Spells links t := by
  induction h with
  | nil => exact .nil
  | access hgap hname _ ih => exact .cons hgap hname (ih hbalanced)
  | call hgap _ _ ih =>
    have hpayload := hbalanced _ List.mem_cons_self
    exact .cons hgap (.call hpayload) (ih fun p hp => hbalanced p (List.mem_cons_of_mem _ hp))

/-- a chain whose arguments are balanced is spelled as one -/
theorem ScriptChain.spelled {root : Text} (h : ScriptChain Code root links t)
    (hbalanced : ∀ p ∈ payloads links, Balanced p) : SpelledChain root links t := by
  obtain ⟨lead, body, trail, rfl, hlead, htrail, hroot, hlinks⟩ := h
  exact ⟨_, trail, rfl, htrail, lead, body, rfl, hlead, hroot, hlinks.spells hbalanced⟩

/-- code is balanced if its literals are -/
theorem balanced_of_nested (hliteral : ∀ l, Literal l → Balanced l) (h : Nested Literal t) : Balanced t := by
  induction h with
  | nil => exact .nil
  | plain hc _ ih =>
    refine .plain ?_ ?_ ih
    · rintro rfl
      cases hc
    · rintro rfl
      cases hc
  | literal hl _ ih => exact (hliteral _ hl).append ih
  | @group c partner inner rest hc _ _ ihInner ihRest =>
    -- of the brackets only parentheses count
    have hother (hopen : c ≠ '(' ∧ c ≠ ')') (hclose : partner ≠ '(' ∧ partner ≠ ')') :
        Balanced (c :: (inner ++ partner :: rest)) :=
      .plain hopen.1 hopen.2 (ihInner.append (.plain hclose.1 hclose.2 ihRest))
    unfold charKind at hc
    split at hc <;> cases hc
    · exact .group ihInner ihRest
    · exact hother (by decide) (by decide)
    · exact hother (by decide) (by decide)

/-! ## What is lifted -/

theorem balanced_of_mem_liftFrom (t : Text) (next : Nat) :
    ∀ a ∈ (liftFrom next 0 [] t).arguments, Balanced a.raw := by
  induction hn : t.length using Nat.strongRecOn generalizing t next with
  | ind n ih =>
    subst hn
    cases t with
    | nil => simp [liftFrom]
    | cons c t =>
      by_cases hopen : c = '('
      · subst hopen
        rw [liftFrom_open]
        rcases liftFrom_group next t with hlost | ⟨payload, rest, rfl, hpayload, hgroup⟩
        · simp [hlost, Lifted.prepend]
        · rw [hgroup]
          intro a ha
          rcases List.mem_cons.1 ha with rfl | ha
          · rwa [raw_classify]
          · exact ih rest.length (by simp; omega) rest (next + 1) rfl a ha
      · rw [liftFrom_plain hopen]
        exact ih t.length (by simp) t next rfl

/-- whatever is lifted is balanced -/
theorem balanced_of_mem_arguments {offset : Nat} {a : Argument} (h : a ∈ (lift t offset).arguments) : Balanced a.raw :=
  balanced_of_mem_liftFrom t offset a h

/-- balanced arguments are lifted as they are -/
theorem Calls.raw_arguments (h : Calls Balanced calls t) (next : Nat) :
    (liftFrom next 0 [] t).arguments.map Argument.raw = calls := by
  induction h generalizing next with
  | nil => rfl
  | between hopen _ _ ih =>
    rw [liftFrom_plain hopen]
    exact ih next
  | @call p t ps hp _ ih =>
    have hsplit : '(' :: (p ++ ')' :: t) = '(' :: (p ++ [')']) ++ t := by simp
    rw [hsplit, liftFrom_call hp]
    change (Argument.classify p).raw :: (liftFrom (next + 1) 0 [] t).arguments.map Argument.raw = p :: ps
    rw [raw_classify, ih]

/-- the calls are found exactly when their arguments are balanced -/
theorem Calls.raw_arguments_iff (h : Calls Code calls t) (offset : Nat) :
    (lift t offset).arguments.map Argument.raw = calls ↔ ∀ p ∈ calls, Balanced p := by
  constructor
  · intro hraw p hp
    rw [← hraw] at hp
    obtain ⟨a, ha, rfl⟩ := List.mem_map.1 hp
    exact balanced_of_mem_arguments ha
  · intro hbalanced
    exact (h.of_balanced hbalanced).raw_arguments offset

theorem Calls.behind (front : Text) (hfront : (front.all fun c => c != '(' && c != ')') = true)
    (h : Calls Code calls t) : Calls Code calls (front ++ t) := by
  induction front with
  | nil => exact h
  | cons c front ih =>
    simp only [List.all_cons, Bool.and_eq_true, bne_iff_ne] at hfront
    exact .between hfront.1.1 hfront.1.2 (ih (by simpa using hfront.2))

theorem Calls.code (h : Calls Code calls t) : ∀ p ∈ calls, Code p := by
  induction h with
  | nil => simp
  | between _ _ _ ih => exact ih
  | call hp _ ih => simpa using ⟨hp, ih⟩

/-- **Call boundaries.** Take a text with calls whose arguments are code of a script, its brackets paired up outside of
literals. Lifting gives one argument for each call, the text between its own parentheses, exactly when all of these
texts are balanced; they are if every literal is. A chain of which the calls are found is then read, link by link. -/
theorem lift_boundaries (h : Calls (Nested Literal) calls t) (offset : Nat) :
    ((lift t offset).arguments.map Argument.raw = calls ↔ ∀ p ∈ calls, Balanced p) ∧
      ((∀ l, Literal l → Balanced l) → (lift t offset).arguments.map Argument.raw = calls) ∧
      ∀ root links, ScriptChain (Nested Literal) root links t → payloads links = calls →
        offset + calls.length ≤ Text.indexLimit → (lift t offset).arguments.map Argument.raw = calls →
        parse (lift t offset).skeleton root = .ok (numbered offset links) := by
  have hiff := h.raw_arguments_iff offset
  refine ⟨hiff, fun hliteral => hiff.2 fun p hp => balanced_of_nested hliteral (h.code p hp), ?_⟩
  intro root links hchain hcalls hlimit hraw
  subst hcalls
  exact parse_of_spelled (hchain.spelled (hiff.1 hraw)) offset hlimit

/-- a chain with a parenthesis in each of two strings -/
def parenthesesInStrings : Text := "SS.content('(').bold.f1(')')".toList

/-- the first call of this chain is lifted up to the end of the second; the script language reads the text to its end -/
theorem lift_boundaries_strings :
    Calls (Nested StringLiteral) ["'('".toList, "')'".toList] parenthesesInStrings ∧
      (((Script.Language.ofFile "a.tsx".toList).expression parenthesesInStrings).toOption.map Prod.snd = some []) ∧
      (lift parenthesesInStrings 0).arguments.map Argument.raw = ["'(').bold.f1(')'".toList] ∧
      ¬ ∀ p ∈ ["'('".toList, "')'".toList], Balanced p := by
  have hopen : Nested StringLiteral "'('".toList :=
    .of_literal (.quoted (Or.inl rfl) (.plain (by decide) (by decide) .nil))
  have hclose : Nested StringLiteral "')'".toList :=
    .of_literal (.quoted (Or.inl rfl) (.plain (by decide) (by decide) .nil))
  have hcalls : Calls (Nested StringLiteral) ["'('".toList, "')'".toList] parenthesesInStrings :=
    .behind "SS.content".toList (by decide) (.call hopen (.behind ".bold.f1".toList (by decide) (.call hclose .nil)))
  have hraw : (lift parenthesesInStrings 0).arguments.map Argument.raw = ["'(').bold.f1(')'".toList] := by decide
  refine ⟨hcalls, by decide +kernel, hraw, ?_⟩
  intro hbalanced
  have hfound := (lift_boundaries hcalls 0).1.2 hbalanced
  rw [hraw] at hfound
  exact absurd hfound (by decide)

end TerseStyle.Chain

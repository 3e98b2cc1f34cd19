/-
Classes of a responsive candidate, as they are written in its fragment. Escaping goes class by class, but the responsive
prefix is put in front of the entry of the vocabulary as a whole. What it does to the classes of an entry is told here for
every entry, however many classes that has and wherever blanks stand in it.

Results:
- `modifyHead_eq_map_iff`: what is put in front of the first class only is in front of each when there is one class.
- `resolve_responsive`: the classes in the fragment of a responsive candidate, gated or not, and when each has the prefix.
-/
import TerseStyle.Proofs.Chain.Template
import TerseStyle.Proofs.Script.Escaping

namespace TerseStyle.Chain

open Script
open Text (words)

/-! ## A prefix in front of classes -/

/-- what is put in front of the first text only is in front of each when there is one text -/
theorem modifyHead_eq_map_iff {p : Text} (hp : p ≠ []) {e : Text → Text} {ws : List Text} (hws : ws ≠ []) :
    (ws.map e).modifyHead (p ++ ·) = ws.map (fun w => p ++ e w) ↔ ws.length = 1 := by
  obtain ⟨w, more, rfl⟩ := List.exists_cons_of_ne_nil hws
  simp only [List.map_cons, List.modifyHead_cons, List.cons.injEq, true_and, List.length_cons, Nat.add_eq_right,
    List.length_eq_zero_iff]
  constructor
  · intro h
    cases more with
    | nil => rfl
    | cons u more =>
      have hlength := congrArg List.length (List.cons.inj h).1
      have := List.length_pos_of_ne_nil hp
      rw [List.length_append] at hlength
      omega
  · rintro rfl
    rfl

/-! ## One candidate -/

/-- how the class of a candidate is escaped: for the template, or for the string that stands under its condition -/
def Candidate.escape (c : Candidate) : Text → Text :=
  match c.gate with
  | .always => escapeTemplate
  | .argument _ => escapeSingleQuoted

/-- where the class of a candidate is written in its fragment -/
inductive Candidate.Writes (arguments : List Argument) (c : Candidate) : Text → Text → Prop
  /-- the whole fragment is the class -/
  | plain {written : Text} : c.gate = .always → Writes arguments c written written
  /-- the class is the string that the condition chooses -/
  | gated {index : Nat} {a : Argument} {written : Text} : c.gate = .argument index → arguments[index]? = some a →
      Writes arguments c ("$\x7b(".toList ++ Text.trim a.raw ++ ")?('".toList ++ written ++ "'):''\x7d".toList) written

variable {v : Vocabulary} {arguments : List Argument} {c : Candidate} {className : Text}

/-- a candidate with a class writes that class, escaped, behind its prefix -/
theorem Candidate.resolve_writes (hclass : v.classOf? c.key = some className)
    (hgate : ∀ index, c.gate = .argument index → index < arguments.length) :
    ∃ f, c.resolve v arguments = .ok (.fragment f none) ∧
      c.Writes arguments f (c.escape (c.variantPrefix ++ className)) := by
  unfold Candidate.resolve Candidate.escape
  rw [hclass]
  cases hcase : c.gate with
  | always => exact ⟨_, rfl, .plain hcase⟩
  | argument index =>
    have ha : arguments[index]? = some _ := List.getElem?_eq_getElem (hgate index hcase)
    refine ⟨_, ?_, .gated hcase ha⟩
    simp only [Candidate.gateArgument, ha]
    rfl

theorem words_escape (c : Candidate) (t : Text) : words (c.escape t) = (words t).map c.escape := by
  unfold Candidate.escape
  cases c.gate with
  | always => exact words_escapeTemplate t
  | argument => exact words_escapeSingleQuoted t

/-- the prefix has nothing to escape -/
theorem escape_behind_prefix (c : Candidate) (t : Text) :
    c.escape (responsivePrefix ++ t) = responsivePrefix ++ c.escape t := by
  unfold Candidate.escape
  cases c.gate with
  | always => simp [responsivePrefix, escapeTemplate_cons]
  | argument => exact escapeSingleQuoted_append responsivePrefix t

theorem escape_prefix (c : Candidate) : c.escape responsivePrefix = responsivePrefix := by
  unfold Candidate.escape
  cases c.gate <;> rfl

theorem not_isBlank_responsivePrefix : ∀ c ∈ responsivePrefix, isBlank c = false := by
  have hall : responsivePrefix.all (fun c => !isBlank c) = true := by decide
  simpa using hall

/-- the classes that an entry is written as behind the prefix: it is in front of the first one, or by itself if a blank
comes first -/
theorem words_escape_behind_prefix (c : Candidate) (className : Text) :
    words (c.escape (responsivePrefix ++ className)) =
      if className.head?.all isBlank then responsivePrefix :: (words className).map c.escape
      else ((words className).map c.escape).modifyHead (responsivePrefix ++ ·) := by
  rw [words_escape, Text.words_behind (by decide) not_isBlank_responsivePrefix]
  split
  · rw [List.map_cons, escape_prefix]
  · cases words className with
    | nil => rfl
    | cons w more =>
      rw [List.modifyHead_cons, List.map_cons, List.map_cons, List.modifyHead_cons, escape_behind_prefix]

/-- **The classes of a responsive candidate.** A candidate with an entry in the vocabulary becomes a fragment, gated or
not, in which the classes of the entry are written one after the other, and the responsive prefix stands in front of the
first of them, or by itself if a blank comes first. So each class has the prefix exactly when the entry is one class with
no blank in front. -/
theorem resolve_responsive (hresponsive : c.responsive = true) (hclass : v.classOf? c.key = some className)
    (hgate : ∀ index, c.gate = .argument index → index < arguments.length) :
    ∃ f written, c.resolve v arguments = .ok (.fragment f none) ∧ c.Writes arguments f written ∧
      words written = (if className.head?.all isBlank then responsivePrefix :: (words className).map c.escape
        else ((words className).map c.escape).modifyHead (responsivePrefix ++ ·)) ∧
      (words written = (words className).map (fun w => responsivePrefix ++ c.escape w) ↔
        (words className).length = 1 ∧ className.head?.all isBlank = false) := by
  obtain ⟨f, hresolve, hwrites⟩ := Candidate.resolve_writes hclass hgate
  have hvariant : c.variantPrefix = responsivePrefix := by rw [Candidate.variantPrefix, hresponsive]; rfl
  rw [hvariant] at hwrites
  have hwords := words_escape_behind_prefix c className
  refine ⟨f, _, hresolve, hwrites, hwords, ?_⟩
  rw [hwords]
  cases hblank : className.head?.all isBlank with
  | true =>
    -- the prefix is a word of its own, one too many
    rw [if_pos rfl]
    simp only [Bool.true_eq_false, and_false, iff_false]
    intro h
    have hlength := congrArg List.length h
    simp at hlength
  | false =>
    have hne : words className ≠ [] := by
      cases className with
      | nil => cases hblank
      | cons d t => exact Text.words_ne_nil (by simpa using hblank) t
    rw [if_neg (by simp), modifyHead_eq_map_iff (by decide) hne]
    simp

/-- a class that stands for two utility classes, under a condition: the second one has no prefix -/
theorem resolve_responsive_center :
    let v : Vocabulary := ⟨.ofList [("center".toList, "justify-center items-center".toList)], .empty⟩
    let c : Candidate := ⟨"center".toList, true, .argument 0⟩
    ∃ written, c.resolve v [.classify "on".toList] =
        .ok (.fragment ("$\x7b(on)?('".toList ++ written ++ "'):''\x7d".toList) none) ∧
      words written = ["sm:justify-center".toList, "items-center".toList] ∧
      words written ≠ ["sm:justify-center".toList, "sm:items-center".toList] := by
  intro v c
  have hgate (index : Nat) (h : c.gate = .argument index) : index < [Argument.classify "on".toList].length := by
    cases h
    decide
  have hclass : v.classOf? c.key = some "justify-center items-center".toList := by decide
  obtain ⟨f, written, hresolve, hwrites, hwords, hiff⟩ := resolve_responsive rfl hclass hgate
  have hwritten : words written = ["sm:justify-center".toList, "items-center".toList] := hwords.trans (by decide)
  cases hwrites with
  | plain h => cases h
  | gated h ha =>
    cases h
    cases ha
    refine ⟨written, hresolve, hwritten, fun heach => ?_⟩
    exact absurd (hiff.1 (heach.trans (by decide))).1 (by decide)

end TerseStyle.Chain

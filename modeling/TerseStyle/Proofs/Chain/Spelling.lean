/-
How a style chain is spelled. A chain is the root name followed by links, each a dot with a name or a group with a
balanced payload, with blanks in front of every link and behind every dot. The spelling is a relation between links with
their payloads and texts; it knows nothing of skeletons, placeholders or indices.

Results:
- `Spells.append`, `Spells.indent`, `Spells.exists_lead`: rows of links are put together, and blanks in front of them
  come and go.
- `SpelledChain.trim`, `SpelledChain.of_trim`: the blanks around a chain belong to no link.
-/
import TerseStyle.Chain.Link
import TerseStyle.Proofs.Text.Basic

namespace TerseStyle.Chain

open Text (isBlankOnly isBlankOnly_append isBlankOnly_cons)

/-! ## The spelling relation -/

/-- a text in which every parenthesis has its partner -/
inductive Balanced : Text → Prop
  | nil : Balanced []
  | plain {c : Char} {t : Text} : c ≠ '(' → c ≠ ')' → Balanced t → Balanced (c :: t)
  | group {inner rest : Text} : Balanced inner → Balanced rest → Balanced ('(' :: (inner ++ ')' :: rest))

/-- a link as it is written; a call carries the text between its parentheses -/
inductive SourceLink where
  | access (name : Text)
  | call (payload : Text)
  deriving DecidableEq, Repr

/-- the texts of one link -/
inductive SourceLink.Spelled : SourceLink → Text → Prop
  | access {gap name : Text} : isBlankOnly gap = true → name ≠ [] → (∀ c ∈ name, isNameChar c = true) →
      Spelled (.access name) ('.' :: (gap ++ name))
  | call {payload : Text} : Balanced payload → Spelled (.call payload) ('(' :: (payload ++ [')']))

/-- the texts of a row of links, each behind optional blanks -/
inductive Spells : List SourceLink → Text → Prop
  | nil : Spells [] []
  | cons {gap t rest : Text} {link : SourceLink} {links : List SourceLink} :
      isBlankOnly gap = true → link.Spelled t → Spells links rest → Spells (link :: links) (gap ++ (t ++ rest))

/-- the texts of a chain: optional blanks, the root name, and links up to the end -/
def StrictChain (root : Text) (links : List SourceLink) (t : Text) : Prop :=
  ∃ lead body, t = lead ++ (root ++ body) ∧ isBlankOnly lead = true ∧ (∀ c ∈ root, isNameChar c = true) ∧
    Spells links body

/-- the texts of a chain, with optional blanks at the end -/
def SpelledChain (root : Text) (links : List SourceLink) (t : Text) : Prop :=
  ∃ chain trail, t = chain ++ trail ∧ isBlankOnly trail = true ∧ StrictChain root links chain

/-- the payloads of the calls, in order -/
def payloads : List SourceLink → List Text
  | [] => []
  | .access _ :: rest => payloads rest
  | .call payload :: rest => payload :: payloads rest

theorem payloads_cons (link : SourceLink) (rest : List SourceLink) :
    payloads (link :: rest) = payloads [link] ++ payloads rest := by
  cases link <;> rfl

/-- the links with their calls numbered from `next` -/
def numbered (next : Nat) : List SourceLink → List Link
  | [] => []
  | .access name :: rest => .access name :: numbered next rest
  | .call _ :: rest => .call next :: numbered (next + 1) rest

/-! ## Characters -/

theorem isNameChar_of_isBlank {c : Char} (h : isBlank c = true) : isNameChar c = false := by
  have hunderscore : c ≠ '_' := by
    intro hc
    rw [hc] at h
    exact absurd h (by decide)
  have hdollar : c ≠ '$' := by
    intro hc
    rw [hc] at h
    exact absurd h (by decide)
  simp [isNameChar, isAlphanumeric_of_isBlank h, hunderscore, hdollar]

theorem isBlank_of_isNameChar {c : Char} (h : isNameChar c = true) : isBlank c = false := by
  by_contra hb
  rw [isNameChar_of_isBlank (by simpa using hb)] at h
  exact Bool.noConfusion h

/-- a mark is neither a blank nor part of a name -/
theorem not_isBlank_mark {c : Char} (h : c = '.' ∨ c = '(' ∨ c = ')' ∨ c = '"') :
    isBlank c = false ∧ isNameChar c = false := by
  rcases h with rfl | rfl | rfl | rfl <;> decide

/-! ## Parts of a row of links -/

/-- a name right behind its dot -/
theorem SourceLink.Spelled.access_flush {name : Text} (hne : name ≠ []) (hname : ∀ c ∈ name, isNameChar c = true) :
    (SourceLink.access name).Spelled ('.' :: name) := by
  have hgap : isBlankOnly [] = true := rfl
  exact .access hgap hne hname

/-- a link without blanks in front -/
theorem Spells.cons_flush {link : SourceLink} {ls : List SourceLink} {t rest : Text} (hrest : Spells ls rest)
    (hlink : link.Spelled t) : Spells (link :: ls) (t ++ rest) := by
  have hgap : isBlankOnly [] = true := rfl
  exact .cons hgap hlink hrest

theorem Spells.append {ls ms : List SourceLink} {s t : Text} (hs : Spells ls s) (ht : Spells ms t) :
    Spells (ls ++ ms) (s ++ t) := by
  induction hs with
  | nil => exact ht
  | @cons gap u rest link links hgap hlink _ ih =>
    have := Spells.cons hgap hlink ih
    simpa only [List.append_assoc, List.cons_append] using this

/-- blanks in front of a row of links belong to its first link -/
theorem Spells.indent {link : SourceLink} {ls : List SourceLink} {s gap : Text} (hgap : isBlankOnly gap = true)
    (hs : Spells (link :: ls) s) : Spells (link :: ls) (gap ++ s) := by
  cases hs with
  | @cons gap' t rest _ _ hgap' hlink hrest =>
    rw [← List.append_assoc]
    exact Spells.cons (by rw [isBlankOnly_append, hgap, hgap']; rfl) hlink hrest

/-- a link starts with a dot or an opening parenthesis -/
theorem SourceLink.Spelled.head {link : SourceLink} {t : Text} (h : link.Spelled t) :
    ∃ c rest, t = c :: rest ∧ (c = '.' ∨ c = '(') := by
  cases h with
  | access => exact ⟨'.', _, rfl, Or.inl rfl⟩
  | call => exact ⟨'(', _, rfl, Or.inr rfl⟩

/-- a name ends with a character that is no blank -/
theorem exists_last_name {name : Text} (hne : name ≠ []) (hname : ∀ c ∈ name, isNameChar c = true) (t : Text) :
    ∃ front c, t ++ name = front ++ [c] ∧ isBlank c = false := by
  refine ⟨t ++ name.dropLast, name.getLast hne, ?_, isBlank_of_isNameChar (hname _ (List.getLast_mem hne))⟩
  rw [List.append_assoc, List.dropLast_append_getLast]

/-- a link ends with a character of its name or with a closing parenthesis -/
theorem SourceLink.Spelled.last {link : SourceLink} {t : Text} (h : link.Spelled t) :
    ∃ front c, t = front ++ [c] ∧ isBlank c = false := by
  cases h with
  | @access gap name _ hne hname => exact exists_last_name hne hname ('.' :: gap)
  | @call payload _ => exact ⟨'(' :: payload, ')', rfl, by decide⟩

/-- a text behind a character that is no blank ends with no blank, if it is empty or does not end with one itself -/
theorem last_behind {gap front rest : Text} {d : Char} (hd : isBlank d = false)
    (hrest : ∀ c ∈ rest.getLast?, isBlank c = false) :
    ∀ c ∈ (gap ++ (front ++ [d] ++ rest)).getLast?, isBlank c = false := by
  intro c hc
  cases rest with
  | nil =>
    rw [List.append_nil, ← List.append_assoc, List.getLast?_concat, Option.mem_some_iff] at hc
    exact hc ▸ hd
  | cons e more =>
    apply hrest
    rwa [← List.append_assoc, List.getLast?_append_of_ne_nil _ (List.cons_ne_nil e more)] at hc

/-- a row of links is empty or ends with a character that is no blank -/
theorem Spells.last {ls : List SourceLink} {s : Text} (h : Spells ls s) : ∀ c ∈ s.getLast?, isBlank c = false := by
  induction h with
  | nil => simp
  | cons _ hlink _ ih =>
    obtain ⟨front, d, rfl, hd⟩ := hlink.last
    exact last_behind hd ih

/-- the blanks in front of a row of links can be taken off -/
theorem Spells.exists_lead {ls : List SourceLink} {s : Text} (h : Spells ls s) :
    ∃ lead body, s = lead ++ body ∧ isBlankOnly lead = true ∧ Spells ls body ∧ ∀ c ∈ body.head?, isBlank c = false := by
  cases h with
  | nil => exact ⟨[], [], rfl, rfl, .nil, by simp⟩
  | @cons gap t rest link links hgap hlink hrest =>
    refine ⟨gap, t ++ rest, rfl, hgap, hrest.cons_flush hlink, ?_⟩
    obtain ⟨c, more, rfl, hc⟩ := hlink.head
    intro d hd
    rw [List.cons_append, List.head?_cons, Option.mem_some_iff] at hd
    subst hd
    exact (not_isBlank_mark (by tauto)).1

/-- a chain of nothing but blanks has no links -/
theorem SpelledChain.eq_nil_of_blank {root t : Text} {ls : List SourceLink} (h : SpelledChain root ls t)
    (hblank : isBlankOnly t = true) : ls = [] := by
  obtain ⟨_, trail, rfl, _, lead, body, rfl, _, _, hbody⟩ := h
  simp only [isBlankOnly_append, Bool.and_eq_true] at hblank
  cases hbody with
  | nil => rfl
  | cons _ hlink _ =>
    obtain ⟨c, rest, rfl, hc⟩ := hlink.head
    have hmark := (not_isBlank_mark (c := c) (by tauto)).1
    simp [isBlankOnly_append, isBlankOnly_cons, hmark] at hblank

/-! ## Balance -/

theorem Balanced.append {s t : Text} (hs : Balanced s) (ht : Balanced t) : Balanced (s ++ t) := by
  induction hs with
  | nil => exact ht
  | plain hopen hclose _ ih => exact .plain hopen hclose ih
  | @group inner rest hinner _ _ ih =>
    have := Balanced.group hinner ih
    simpa only [List.cons_append, List.append_assoc] using this

theorem balanced_of_flat {t : Text} (hopen : '(' ∉ t) (hclose : ')' ∉ t) : Balanced t := by
  induction t with
  | nil => exact .nil
  | cons c t ih =>
    rw [List.mem_cons, not_or] at hopen hclose
    exact .plain (Ne.symm hopen.1) (Ne.symm hclose.1) (ih hopen.2 hclose.2)

/-- a name with an argument in front of links -/
theorem Spells.named_call {name payload t : Text} {ls : List SourceLink} (hname : name ≠ [] ∧ name.all isNameChar = true)
    (hpayload : Balanced payload) (h : Spells ls t) :
    Spells (.access name :: .call payload :: ls) ('.' :: (name ++ '(' :: (payload ++ ')' :: t))) := by
  have := (h.cons_flush (.call hpayload)).cons_flush (.access_flush hname.1 (List.all_eq_true.1 hname.2))
  simpa using this

/-- a text of blanks and characters of names has no parentheses -/
theorem balanced_of_plain {t : Text} (h : ∀ c ∈ t, isBlank c = true ∨ isNameChar c = true) : Balanced t := by
  have hmark {c : Char} (hc : c = '.' ∨ c = '(' ∨ c = ')' ∨ c = '"') : c ∉ t := by
    intro hmem
    obtain ⟨hblank, hname⟩ := not_isBlank_mark hc
    simpa [hblank, hname] using h c hmem
  exact balanced_of_flat (hmark (by simp)) (hmark (by simp))

theorem balanced_of_isBlankOnly {gap : Text} (h : isBlankOnly gap = true) : Balanced gap :=
  balanced_of_plain fun c hc => Or.inl (List.all_eq_true.1 h c hc)

/-- a chain can be the payload of a call -/
theorem Spells.balanced {ls : List SourceLink} {body : Text} (h : Spells ls body) : Balanced body := by
  induction h with
  | nil => exact .nil
  | @cons gap t rest link links hgap hlink _ ih =>
    refine (balanced_of_isBlankOnly hgap).append (.append ?_ ih)
    cases hlink with
    | access hgap _ hname =>
      exact .plain (by decide) (by decide) ((balanced_of_isBlankOnly hgap).append (balanced_of_plain fun c hc =>
        Or.inr (hname c hc)))
    | call hpayload => exact .group hpayload .nil

/-! ## Trimming a chain -/

theorem SpelledChain.of_spells {root body : Text} {ls : List SourceLink} (hroot : ∀ c ∈ root, isNameChar c = true)
    (hbody : Spells ls body) : SpelledChain root ls (root ++ body) :=
  ⟨root ++ body, [], (List.append_nil _).symm, rfl, [], body, rfl, rfl, hroot, hbody⟩

/-- there is no chain of a root that is not made of characters of names -/
theorem SpelledChain.isNameChar_root {root t : Text} {ls : List SourceLink} (h : SpelledChain root ls t) :
    ∀ c ∈ root, isNameChar c = true := by
  obtain ⟨_, _, _, _, _, _, _, _, hroot, _⟩ := h
  exact hroot

theorem SpelledChain.indent {root lead t trail : Text} {ls : List SourceLink} (h : SpelledChain root ls t)
    (hlead : isBlankOnly lead = true) (htrail : isBlankOnly trail = true) :
    SpelledChain root ls (lead ++ (t ++ trail)) := by
  obtain ⟨_, trail', rfl, htrail', lead', body, rfl, hlead', hroot, hbody⟩ := h
  refine ⟨(lead ++ lead') ++ (root ++ body), trail' ++ trail, by simp, by rw [isBlankOnly_append, htrail', htrail]; rfl,
    lead ++ lead', body, rfl, by rw [isBlankOnly_append, hlead, hlead']; rfl, hroot, hbody⟩

/-- a chain without the blanks around it is spelled by the same links -/
theorem SpelledChain.trim {root t : Text} {ls : List SourceLink} (h : SpelledChain root ls t) :
    SpelledChain root ls (Text.trim t) := by
  obtain ⟨_, trail, rfl, htrail, lead, body, rfl, hlead, hroot, hbody⟩ := h
  cases root with
  | nil =>
    obtain ⟨gap, core, rfl, hgap, hcore, hhead⟩ := hbody.exists_lead
    have : Text.trim ((lead ++ gap) ++ (core ++ trail)) = core :=
      Text.trim_of_blanks (by rw [isBlankOnly_append, hlead, hgap]; rfl) htrail hhead hcore.last
    have heq : lead ++ ([] ++ (gap ++ core)) ++ trail = (lead ++ gap) ++ (core ++ trail) := by simp
    rw [heq, this]
    exact .of_spells hroot hcore
  | cons r rs =>
    have hhead : ∀ c ∈ ((r :: rs) ++ body).head?, isBlank c = false := by
      intro c hc
      rw [List.cons_append, List.head?_cons, Option.mem_some_iff] at hc
      exact hc ▸ isBlank_of_isNameChar (hroot r List.mem_cons_self)
    have hlast : ∀ c ∈ ((r :: rs) ++ body).getLast?, isBlank c = false := by
      intro c hc
      cases body with
      | nil =>
        rw [List.append_nil] at hc
        exact isBlank_of_isNameChar (hroot c (List.mem_of_getLast? hc))
      | cons d more =>
        rw [List.getLast?_append_of_ne_nil _ (List.cons_ne_nil d more)] at hc
        exact hbody.last c hc
    rw [List.append_assoc lead, Text.trim_of_blanks hlead htrail hhead hlast]
    exact .of_spells hroot hbody

theorem SpelledChain.of_trim {root t : Text} {ls : List SourceLink} (h : SpelledChain root ls (Text.trim t)) :
    SpelledChain root ls t := by
  obtain ⟨lead, trail, heq, hlead, htrail⟩ := Text.exists_trim t
  have := h.indent hlead htrail
  rwa [← heq] at this

end TerseStyle.Chain

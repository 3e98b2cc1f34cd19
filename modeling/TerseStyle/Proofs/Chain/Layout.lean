/-
The layout of a chain: blanks around its root, dots, names and groups, and right inside of the parentheses of its calls, at
every depth of preloading. `Relaid` relates rows of links whose arguments differ in such blanks, and `SameChain` the texts
that they are spelled by. What such texts mean differs in the blanks around the arguments of gates and in nothing else; what
an argument is read as differs only where it is a string.

Results:
- `Padded.kind_eq_iff`: blanks around an argument change how it is read exactly when it is a string.
- `Runs.relaid`, `Means.relaid`: a chain in another layout comes to the same candidates, styles and modes, with arguments
  that are related as those of the chains are.
-/
import Mathlib.Data.List.Forall2
import TerseStyle.Proofs.Chain.Meaning

namespace TerseStyle.Chain

open Text (isBlankOnly isBlankOnly_append)

/-! ## Arguments -/

/-- the same text but for the blanks around it -/
def SameArgument (p q : Text) : Prop := Text.trim p = Text.trim q

/-- the text with blanks added around it -/
def Padded (p q : Text) : Prop :=
  ∃ lead trail, q = lead ++ (p ++ trail) ∧ isBlankOnly lead = true ∧ isBlankOnly trail = true

/-- the same text but for the blanks around it, and a constant with both or with neither -/
structure SameReading (p q : Text) : Prop where
  text : SameArgument p q
  kind : (Argument.classify p).kind = (Argument.classify q).kind

/-- a relation of arguments that differ in the blanks around them only -/
structure RelatesBlanks (R : Text → Text → Prop) : Prop where
  refl : ∀ p, R p p
  text : ∀ {p q}, R p q → SameArgument p q

variable {R : Text → Text → Prop} {p q : Text}

theorem Padded.sameArgument (h : Padded p q) : SameArgument p q := by
  obtain ⟨lead, trail, rfl, hlead, htrail⟩ := h
  exact (Text.trim_padded hlead htrail p).symm

theorem relatesBlanks_sameArgument : RelatesBlanks SameArgument := ⟨fun _ => rfl, id⟩

theorem relatesBlanks_padded : RelatesBlanks Padded := by
  refine ⟨fun p => ⟨[], [], ?_, rfl, rfl⟩, Padded.sameArgument⟩
  rw [List.nil_append, List.append_nil]

theorem relatesBlanks_sameReading : RelatesBlanks SameReading := ⟨fun _ => ⟨rfl, rfl⟩, SameReading.text⟩

theorem SameArgument.isBlankOnly_eq (h : SameArgument p q) : isBlankOnly p = isBlankOnly q := by
  unfold SameArgument at h
  rw [Bool.eq_iff_iff, ← Text.trim_eq_nil_iff, ← Text.trim_eq_nil_iff, h]

theorem SameArgument.isNumber_eq (h : SameArgument p q) : isNumber p = isNumber q := by
  unfold SameArgument at h
  unfold isNumber
  rw [h]

/-- no blanks stand around a text in quotes -/
theorem trim_of_quoted {inner : Text} (h : unquote? p = some inner) : Text.trim p = p := by
  unfold unquote? at h
  split at h
  · rename_i rest
    split at h
    · rename_i hlast
      have hback : ∀ c ∈ ('\'' :: rest).getLast?, isBlank c = false := by
        intro c hc
        rw [List.getLast?_cons, hlast, Option.getD_some, Option.mem_some_iff] at hc
        exact hc ▸ by decide
      have hfront : ∀ c ∈ ('\'' :: rest).head?, isBlank c = false := by
        intro c hc
        rw [List.head?_cons, Option.mem_some_iff] at hc
        exact hc ▸ by decide
      have htrim : Text.trim ([] ++ ('\'' :: rest ++ [])) = '\'' :: rest := Text.trim_of_blanks rfl rfl hfront hback
      rwa [List.nil_append, List.append_nil] at htrim
    · cases h
  · cases h

theorem kind_eq_constant_iff : (Argument.classify p).kind = .constant ↔
    isNumber p = true ∨ ∃ inner, unquote? p = some inner := by
  unfold Argument.classify
  split
  · rename_i hnumber
    simp [hnumber]
  · rename_i hnumber
    cases h : unquote? p <;> simp [hnumber]

/-- constants that differ in the blanks around them have one value -/
theorem SameArgument.value_eq (h : SameArgument p q) (hp : (Argument.classify p).kind = .constant)
    (hq : (Argument.classify q).kind = .constant) : (Argument.classify p).value = (Argument.classify q).value := by
  by_cases hnumber : isNumber p = true
  · have hnumber' : isNumber q = true := by rw [← h.isNumber_eq, hnumber]
    unfold Argument.classify
    rw [if_pos hnumber, if_pos hnumber']
    exact h
  · have hnumber' : ¬ isNumber q = true := by rwa [← h.isNumber_eq]
    obtain ⟨inner, hinner⟩ := (kind_eq_constant_iff.1 hp).resolve_left hnumber
    obtain ⟨inner', hinner'⟩ := (kind_eq_constant_iff.1 hq).resolve_left hnumber'
    have heq : p = q :=
      calc p = Text.trim p := (trim_of_quoted hinner).symm
        _ = Text.trim q := h
        _ = q := trim_of_quoted hinner'
    rw [heq]

/-- blanks added around a text in quotes do not leave it in quotes -/
theorem Padded.eq_of_quoted (h : Padded p q) {inner : Text} (hq : unquote? q = some inner) : p = q := by
  have htrim : Text.trim p = q :=
    calc Text.trim p = Text.trim q := h.sameArgument
      _ = q := trim_of_quoted hq
  obtain ⟨lead, trail, rfl, _, _⟩ := h
  obtain ⟨front, back, hp, _, _⟩ := Text.exists_trim p
  have hlength := congrArg List.length hp
  rw [htrim] at hlength
  simp only [List.length_append] at hlength
  obtain rfl : lead = [] := List.eq_nil_of_length_eq_zero (by omega)
  obtain rfl : trail = [] := List.eq_nil_of_length_eq_zero (by omega)
  rw [List.nil_append, List.append_nil]

/-- **Blanks around an argument change how it is read exactly when it is a string**: when it is in quotes, and no
number. -/
theorem Padded.kind_eq_iff (h : Padded p q) : (Argument.classify p).kind = (Argument.classify q).kind ↔
    p = q ∨ isNumber p = true ∨ unquote? p = none := by
  constructor
  · intro hkind
    by_contra hstring
    obtain ⟨hne, hnumber, hquoted⟩ := not_or.1 hstring |>.imp_right not_or.1
    obtain ⟨inner, hinner⟩ := Option.ne_none_iff_exists'.1 hquoted
    have hq := hkind ▸ kind_eq_constant_iff.2 (Or.inr ⟨inner, hinner⟩)
    rcases kind_eq_constant_iff.1 hq with hq | ⟨inner', hq⟩
    · exact hnumber (h.sameArgument.isNumber_eq ▸ hq)
    · exact hne (h.eq_of_quoted hq)
  · intro hread
    rcases hread with rfl | hnumber | hquoted
    · rfl
    · have hnumber' : isNumber q = true := by rw [← h.sameArgument.isNumber_eq, hnumber]
      rw [kind_eq_constant_iff.2 (Or.inl hnumber), kind_eq_constant_iff.2 (Or.inl hnumber')]
    · have hquoted' : unquote? q = none := by
        rw [Option.eq_none_iff_forall_ne_some]
        intro inner hinner
        obtain rfl := h.eq_of_quoted hinner
        rw [hquoted] at hinner
        cases hinner
      unfold Argument.classify
      rw [hquoted, hquoted', h.sameArgument.isNumber_eq]
      split <;> rfl

/-- the only way in which blanks around an argument change how it is read: a constant becomes an expression -/
theorem Padded.kind_of_ne (h : Padded p q) (hne : (Argument.classify p).kind ≠ (Argument.classify q).kind) :
    (Argument.classify p).kind = .constant ∧ (Argument.classify q).kind = .variable := by
  have hstring := mt h.kind_eq_iff.2 hne
  obtain ⟨_, _, hquoted⟩ := not_or.1 hstring |>.imp_right not_or.1
  obtain ⟨inner, hinner⟩ := Option.ne_none_iff_exists'.1 hquoted
  have hp := kind_eq_constant_iff.2 (Or.inr ⟨inner, hinner⟩)
  refine ⟨hp, ?_⟩
  cases hq : (Argument.classify q).kind with
  | «variable» => rfl
  | constant => exact absurd (hp.trans hq.symm) hne

/-! ## Rows of links -/

/-- rows of links that call related arguments. `style` and `preload` say what is waited for in front of them: the argument
of a literal style is the same in both rows, and a preloaded chain may have another layout itself. -/
inductive Relaid (R : Text → Text → Prop) (root : Text) :
    (style preload : Bool) → List SourceLink → List SourceLink → Prop
  | done {style preload : Bool} : Relaid R root style preload [] []
  | access {style preload : Bool} {name : Text} {ls ks : List SourceLink} :
      Relaid R root (style || decide (name = styleName)) (preload || decide (name = preloadName)) ls ks →
      Relaid R root style preload (.access name :: ls) (.access name :: ks)
  | literal {preload : Bool} {payload : Text} {ls ks : List SourceLink} : Relaid R root false preload ls ks →
      Relaid R root true preload (.call payload :: ls) (.call payload :: ks)
  | argument {preload : Bool} {p q : Text} {ls ks : List SourceLink} : R p q → Relaid R root false false ls ks →
      Relaid R root false preload (.call p :: ls) (.call q :: ks)
  | chain {p q : Text} {as bs ls ks : List SourceLink} : SpelledChain root as p → SpelledChain root bs q →
      Relaid R root false false as bs → Relaid R root false false ls ks →
      Relaid R root false true (.call p :: ls) (.call q :: ks)

/-- chains in two layouts, with related arguments -/
def SameChain (R : Text → Text → Prop) (root t t' : Text) : Prop :=
  ∃ ls ks, SpelledChain root ls t ∧ SpelledChain root ks t' ∧ Relaid R root false false ls ks

section

variable {root t t' : Text} {style preload : Bool} {ls ks : List SourceLink}

theorem Relaid.refl (hR : ∀ p, R p p) (root : Text) (style preload : Bool) (ls : List SourceLink) :
    Relaid R root style preload ls ls := by
  induction ls generalizing style preload with
  | nil => exact .done
  | cons link ls ih =>
    cases link with
    | access name => exact .access (ih _ _)
    | call payload =>
      cases style with
      | true => exact .literal (ih _ _)
      | false => exact .argument (hR payload) (ih _ _)

theorem Relaid.symm (h : Relaid R root style preload ls ks) :
    Relaid (fun p q => R q p) root style preload ks ls := by
  induction h with
  | done => exact .done
  | access _ ih => exact .access ih
  | literal _ ih => exact .literal ih
  | argument hR _ ih => exact .argument hR ih
  | chain hp hq _ _ ihInner ih => exact .chain hq hp ihInner ih

theorem Relaid.mono {R' : Text → Text → Prop} (hR : ∀ {p q}, R p q → R' p q)
    (h : Relaid R root style preload ls ks) : Relaid R' root style preload ls ks := by
  induction h with
  | done => exact .done
  | access _ ih => exact .access ih
  | literal _ ih => exact .literal ih
  | argument hr _ ih => exact .argument (hR hr) ih
  | chain hp hq _ _ ihInner ih => exact .chain hp hq ihInner ih

theorem SameChain.symm (h : SameChain SameArgument root t t') : SameChain SameArgument root t' t := by
  obtain ⟨ls, ks, hls, hks, hrelaid⟩ := h
  exact ⟨ks, ls, hks, hls, hrelaid.symm.mono Eq.symm⟩

theorem SameChain.mono {R' : Text → Text → Prop} (hR : ∀ {p q}, R p q → R' p q) (h : SameChain R root t t') :
    SameChain R' root t t' := by
  obtain ⟨ls, ks, hls, hks, hrelaid⟩ := h
  exact ⟨ls, ks, hls, hks, hrelaid.mono hR⟩

end

/-- a chain of blanks only has neither a root nor links -/
theorem SpelledChain.isBlankOnly_iff {root t : Text} {ls : List SourceLink} (h : SpelledChain root ls t) :
    isBlankOnly t = true ↔ root = [] ∧ ls = [] := by
  constructor
  · intro hblank
    refine ⟨?_, h.eq_nil_of_blank hblank⟩
    obtain ⟨_, trail, rfl, _, lead, body, rfl, _, hroot, _⟩ := h
    simp only [isBlankOnly_append, Bool.and_eq_true] at hblank
    cases root with
    | nil => rfl
    | cons c root =>
      have hblank' : isBlank c = true := List.all_eq_true.1 hblank.1.2.1 c List.mem_cons_self
      rw [isBlank_of_isNameChar (hroot c List.mem_cons_self)] at hblank'
      cases hblank'
  · rintro ⟨rfl, rfl⟩
    obtain ⟨_, trail, rfl, htrail, lead, body, rfl, hlead, _, hbody⟩ := h
    cases hbody
    simp only [isBlankOnly_append, hlead, htrail]
    rfl

/-! ## What relaid chains come to -/

/-- gates by related arguments -/
inductive GateAlike (R : Text → Text → Prop) : Option Argument → Option Argument → Prop
  | always : GateAlike R none none
  | argument {p q : Text} : R p q → GateAlike R (some (.classify p)) (some (.classify q))

/-- candidates that are the same but for the arguments of their gates, which are related -/
structure BoundCandidate.Alike (R : Text → Text → Prop) (b b' : BoundCandidate) : Prop where
  key : b.key = b'.key
  responsive : b.responsive = b'.responsive
  gate : GateAlike R b.gate b'.gate

/-- meanings that are the same but for related arguments -/
structure Meaning.Alike (R : Text → Text → Prop) (m m' : Meaning) : Prop where
  candidates : List.Forall₂ (BoundCandidate.Alike R) m.candidates m'.candidates
  declarations : m.declarations = m'.declarations

/-- states that are the same but for related arguments -/
structure Progress.Alike (R : Text → Text → Prop) (p p' : Progress) : Prop where
  candidates : List.Forall₂ (BoundCandidate.Alike R) p.candidates p'.candidates
  declarations : p.declarations = p'.declarations
  responsive : p.responsive = p'.responsive
  stylePending : p.stylePending = p'.stylePending
  preloadPending : p.preloadPending = p'.preloadPending
  finished : p.finished = p'.finished

theorem BoundCandidate.Alike.mono {R' : Text → Text → Prop} (hR : ∀ {p q}, R p q → R' p q) {b b' : BoundCandidate}
    (h : b.Alike R b') : b.Alike R' b' := by
  refine ⟨h.key, h.responsive, ?_⟩
  have hgate := h.gate
  generalize b.gate = g, b'.gate = g' at hgate
  cases hgate with
  | always => exact .always
  | argument hr => exact .argument (hR hr)

theorem Progress.alike_init : Progress.Alike R {} {} := ⟨.nil, rfl, rfl, rfl, rfl, rfl⟩

section

variable {p p' : Progress}

theorem Progress.Alike.access (h : p.Alike R p') (name : Text) : (p.access name).Alike R (p'.access name) := by
  unfold Progress.access
  split_ifs
  · exact { h with finished := rfl }
  · exact { h with responsive := rfl }
  · exact { h with stylePending := rfl }
  · exact { h with preloadPending := rfl }
  · refine { h with candidates := ?_ }
    exact List.rel_append h.candidates (.cons ⟨rfl, h.responsive, .always⟩ .nil)

theorem Progress.Alike.literal (h : p.Alike R p') (payload : Text) : (p.literal payload).Alike R (p'.literal payload) := by
  refine { h with declarations := ?_, stylePending := rfl }
  unfold Progress.literal
  rw [h.declarations]

theorem gateLast_alike {a b : Text} (hab : R a b) {cs ds : List BoundCandidate}
    (h : List.Forall₂ (BoundCandidate.Alike R) cs ds) :
    List.Forall₂ (BoundCandidate.Alike R) (Progress.gateLast (.classify a) cs) (Progress.gateLast (.classify b) ds) := by
  induction h with
  | nil => exact .nil
  | cons hc hrest ih =>
    cases hrest with
    | nil => exact .cons ⟨hc.key, hc.responsive, .argument hab⟩ .nil
    | cons => exact .cons hc ih

theorem Progress.Alike.gate (h : p.Alike R p') {a b : Text} (hR : RelatesBlanks R) (hab : R a b) :
    (p.gate a).Alike R (p'.gate b) := by
  unfold Progress.gate
  rw [← (hR.text hab).isBlankOnly_eq]
  split
  · exact h
  · exact { h with candidates := gateLast_alike hab h.candidates }

theorem Progress.Alike.preload (h : p.Alike R p') {m m' : Meaning} (hm : m.Alike R m') :
    (p.preload m).Alike R (p'.preload m') where
  candidates := List.rel_append h.candidates hm.candidates
  declarations := by
    change p.declarations ++ m.declarations = p'.declarations ++ m'.declarations
    rw [h.declarations, hm.declarations]
  responsive := h.responsive
  stylePending := h.stylePending
  preloadPending := rfl
  finished := h.finished

end

/-- the argument of a call that is waited for as a chain, in the other layout: it is blank if this one is, and a chain
with related links if this one is a chain -/
theorem Relaid.preloaded {root p : Text} {ls rest : List SourceLink} (hR : RelatesBlanks R)
    (h : Relaid R root false true (.call p :: ls) rest) : ∃ q ks, rest = .call q :: ks ∧
      Relaid R root false false ls ks ∧ isBlankOnly p = isBlankOnly q ∧
      ∀ as, SpelledChain root as p → ∃ bs, SpelledChain root bs q ∧ Relaid R root false false as bs := by
  cases h with
  | @argument _ _ q _ ks hpq hrest =>
    refine ⟨q, ks, rfl, hrest, (hR.text hpq).isBlankOnly_eq, fun as has => ⟨as, ?_, .refl hR.refl root _ _ as⟩⟩
    have htext : Text.trim p = Text.trim q := hR.text hpq
    have htrim := has.trim
    rw [htext] at htrim
    exact htrim.of_trim
  | @chain _ q as bs _ ks hp hq hinner hrest =>
    refine ⟨q, ks, rfl, hrest, ?_, ?_⟩
    · rw [Bool.eq_iff_iff, hp.isBlankOnly_iff, hq.isBlankOnly_iff]
      refine and_congr_right fun _ => ?_
      cases hinner with
      | done => rfl
      | access | argument => simp
    · intro as' has'
      obtain rfl := hp.unique has'
      exact ⟨bs, hq, hinner⟩

/-- **A chain in another layout comes to the same**, but for the blanks around the arguments of its gates. -/
theorem Runs.relaid {root : Text} (hR : RelatesBlanks R) {p p' q : Progress} {ls ks : List SourceLink}
    {style preload : Bool} (h : Runs root p ls q) (hp : p.Alike R p') (hstyle : p.stylePending = style)
    (hpreload : p.preloadPending = preload) (hrelaid : Relaid R root style preload ls ks) :
    ∃ q', Runs root p' ks q' ∧ q.Alike R q' := by
  induction h generalizing p' ks style preload with
  | done =>
    cases hrelaid
    exact ⟨p', .done, hp⟩
  | @access p q name rest hfin _ ih =>
    cases hrelaid with
    | access hrest =>
      obtain ⟨hstyle', hpreload'⟩ := Prod.mk.inj (p.access_pending name)
      obtain ⟨q', hrun, halike⟩ := ih (hp.access name) (by rw [hstyle', hstyle]) (by rw [hpreload', hpreload]) hrest
      exact ⟨q', .access (hp.finished ▸ hfin) hrun, halike⟩
  | @literal p q payload rest hfin hon _ ih =>
    obtain rfl : style = true := hstyle.symm.trans hon
    cases hrelaid with
    | literal hrest =>
      obtain ⟨q', hrun, halike⟩ := ih (hp.literal payload) rfl hpreload hrest
      exact ⟨q', .literal (hp.finished ▸ hfin) (hp.stylePending ▸ hon) hrun, halike⟩
  | @skip p q payload rest hfin hoff hon hblank _ ih =>
    obtain rfl : style = false := hstyle.symm.trans hoff
    obtain rfl : preload = true := hpreload.symm.trans hon
    obtain ⟨other, ks, rfl, hrest, hblank', _⟩ := hrelaid.preloaded hR
    have hskipped : Progress.Alike R { p with preloadPending := false } { p' with preloadPending := false } :=
      { hp with preloadPending := rfl }
    obtain ⟨q', hrun, halike⟩ := ih hskipped hoff rfl hrest
    exact ⟨q', .skip (hp.finished ▸ hfin) (hp.stylePending ▸ hoff) (hp.preloadPending ▸ hon) (hblank' ▸ hblank) hrun,
      halike⟩
  | @preload p q inner payload links rest hfin hoff hon hblank hspelled _ _ ihInner ih =>
    obtain rfl : style = false := hstyle.symm.trans hoff
    obtain rfl : preload = true := hpreload.symm.trans hon
    obtain ⟨other, ks, rfl, hrest, hblank', hchain⟩ := hrelaid.preloaded hR
    obtain ⟨links', hspelled', hinner⟩ := hchain links hspelled
    obtain ⟨inner', hrunInner, halikeInner⟩ := ihInner Progress.alike_init rfl rfl hinner
    have hmeaning : inner.meaning.Alike R inner'.meaning := ⟨halikeInner.candidates, halikeInner.declarations⟩
    obtain ⟨q', hrun, halike⟩ := ih (hp.preload hmeaning) hoff rfl hrest
    exact ⟨q', .preload (hp.finished ▸ hfin) (hp.stylePending ▸ hoff) (hp.preloadPending ▸ hon) (hblank' ▸ hblank)
      hspelled' hrunInner hrun, halike⟩
  | @gate p q payload rest hfin hoff hoff' hne _ ih =>
    obtain rfl : style = false := hstyle.symm.trans hoff
    obtain rfl : preload = false := hpreload.symm.trans hoff'
    cases hrelaid with
    | argument hpq hrest =>
      obtain ⟨hstyle', hpreload'⟩ : (p.gate payload).stylePending = false ∧ (p.gate payload).preloadPending = false := by
        unfold Progress.gate
        split <;> exact ⟨hoff, hoff'⟩
      obtain ⟨q', hrun, halike⟩ := ih (hp.gate hR hpq) hstyle' hpreload' hrest
      refine ⟨q', .gate (hp.finished ▸ hfin) (hp.stylePending ▸ hoff) (hp.preloadPending ▸ hoff') ?_ hrun, halike⟩
      intro hnil
      have hlength := hp.candidates.length_eq
      rw [hnil] at hlength
      exact hne (List.eq_nil_of_length_eq_zero hlength)

/-- **A text in another layout means the same**, but for the blanks around the arguments of its gates. -/
theorem Means.relaid {root t t' : Text} {m : Meaning} (hR : RelatesBlanks R) (h : Means root t m)
    (hsame : SameChain R root t t') : ∃ m', Means root t' m' ∧ m.Alike R m' := by
  obtain ⟨links, p, hlinks, hp, rfl⟩ := h
  obtain ⟨ls, ks, hls, hks, hrelaid⟩ := hsame
  obtain rfl := hls.unique hlinks
  obtain ⟨q, hq, halike⟩ := hp.relaid hR Progress.alike_init rfl rfl hrelaid
  exact ⟨q.meaning, ⟨ks, q, hks, hq, rfl⟩, halike.candidates, halike.declarations⟩

end TerseStyle.Chain

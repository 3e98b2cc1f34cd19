/-
What a chain without preloads comes to, read off the positions of its links. There are no modes here: what a name or a
call does is told by the links that stand before and behind it, at whatever distance. A run is followed from its end,
one link more at a time, since a link that is added changes nothing at the positions before it but the gate of the last
class.

Results:
- `candidatesOf_concat`, `candidatesOf_concat_gating`: what one more link does to the candidates read off.
- `step_readOff`, `fits_of_step`: an operation succeeds on what was read off links exactly when it fits, and then leads to
  what is read off these and one more.
- `run_readOff`: when a run succeeds, and the state that it ends in.
- `run_meaning`: both, with the outcome of the finished chain.
-/
import Mathlib.Data.List.Induction
import TerseStyle.Proofs.Chain.Containment

namespace TerseStyle.Chain

/-! ## Positions -/

/-- whether a link is a call -/
def Link.isCall : Link → Bool
  | .access _ => false
  | .call _ => true

/-- the names that switch a mode and ask for no class -/
def modeNames : List Text := [finishName, responsiveName, styleName, preloadName]

/-- whether a link is a name that asks for a class -/
def Link.asksClass : Link → Bool
  | .access name => !modeNames.contains name
  | .call _ => false

/-- the argument of a call, with its index; none if it is empty or does not exist -/
def Link.content? (arguments : List Argument) : Link → Option (Nat × Argument)
  | .access _ => none
  | .call index => (arguments[index]?.filter fun a => !a.isEmpty).map fun a => (index, a)

/-- a `$style` is still waiting at a position: it stands before it, with no call in between -/
def StyleWaits (links : List Link) (i : Nat) : Prop :=
  ∃ k < i, links[k]? = some (.access styleName) ∧ ∀ m < i, k < m → links[m]?.any Link.isCall = false

/-- no name between two positions asks for a class -/
def NoClassBetween (links : List Link) (i j : Nat) : Prop :=
  ∀ m < j, i < m → links[m]?.any Link.asksClass = false

instance (links : List Link) (i : Nat) : Decidable (StyleWaits links i) :=
  inferInstanceAs (Decidable (∃ k < i, _))

instance (links : List Link) (i j : Nat) : Decidable (NoClassBetween links i j) :=
  inferInstanceAs (Decidable (∀ m < j, _))

/-- the argument by which the call at `j` gates the class that the name at `i` asks for -/
def gatingCall? (arguments : List Argument) (links : List Link) (i j : Nat) : Option Nat :=
  if i < j ∧ NoClassBetween links i j ∧ ¬ StyleWaits links j then
    (links[j]?.bind (Link.content? arguments)).map Prod.fst
  else none

/-- the gate of the class that the name at a position asks for: the last call that gates it -/
def gateAt (arguments : List Argument) (links : List Link) (i : Nat) : Gate :=
  match ((List.range links.length).filterMap (gatingCall? arguments links i)).getLast? with
  | some index => .argument index
  | none => .always

/-- the candidate of the name at a position, if it asks for a class; it is responsive when `$s` stands before it -/
def candidateAt? (arguments : List Argument) (links : List Link) (i : Nat) : Option Candidate :=
  match links[i]? with
  | some (.access name) =>
    if (Link.access name).asksClass then
      some ⟨Interpreter.keyOf name, decide (.access responsiveName ∈ links.take i), gateAt arguments links i⟩
    else none
  | _ => none

/-- the literal style of the call at a position, if a `$style` is waiting for it -/
def literalAt? (arguments : List Argument) (links : List Link) (i : Nat) : Option Declaration :=
  if StyleWaits links i then (links[i]?.bind (Link.content? arguments)).map fun p => .spread p.2.raw else none

/-- the candidates of all positions, in order -/
def candidatesOf (arguments : List Argument) (links : List Link) : List Candidate :=
  (List.range links.length).filterMap (candidateAt? arguments links)

/-- the literal styles of all positions, in order -/
def literalsOf (arguments : List Argument) (links : List Link) : List Declaration :=
  (List.range links.length).filterMap (literalAt? arguments links)

/-- what a chain without preloads needs in order to run -/
structure Runnable (arguments : List Argument) (links : List Link) : Prop where
  /-- nothing follows the finishing name -/
  ends : ∀ i < links.length, links[i]? = some (.access finishName) → i + 1 = links.length
  /-- every call is on an argument that exists -/
  calls : ∀ index, .call index ∈ links → index < arguments.length
  /-- every call that no `$style` is waiting for comes behind a name that asks for a class -/
  named : ∀ j < links.length, links[j]?.any Link.isCall = true → ¬ StyleWaits links j →
    ∃ i < j, links[i]?.any Link.asksClass = true

variable {arguments : List Argument} {links : List Link} {link : Link} {i j : Nat}

/-! ## One link more -/

theorem getElem?_concat (link : Link) (hi : i < links.length) : (links ++ [link])[i]? = links[i]? :=
  List.getElem?_append_left hi

theorem styleWaits_concat (link : Link) (hi : i ≤ links.length) :
    StyleWaits (links ++ [link]) i ↔ StyleWaits links i := by
  refine exists_congr fun k => and_congr_right fun hk => ?_
  rw [getElem?_concat link (Nat.lt_of_lt_of_le hk hi)]
  refine and_congr_right fun _ => forall₂_congr fun m hm => ?_
  rw [getElem?_concat link (Nat.lt_of_lt_of_le hm hi)]

/-- behind a further link `$style` waits if that link is one, or if it was waiting and the link is no call -/
theorem styleWaits_behind (links : List Link) (link : Link) :
    StyleWaits (links ++ [link]) (links ++ [link]).length ↔
      link = .access styleName ∨ link.isCall = false ∧ StyleWaits links links.length := by
  have hlast : (links ++ [link])[links.length]? = some link := List.getElem?_concat_length
  rw [List.length_append, List.length_singleton]
  constructor
  · intro h
    obtain ⟨k, hk, hstyle, hcalls⟩ := h
    rcases Nat.lt_succ_iff_lt_or_eq.1 hk with hk | rfl
    · have hcall := hcalls links.length (Nat.lt_succ_self _) hk
      rw [hlast] at hcall
      rw [getElem?_concat link hk] at hstyle
      refine Or.inr ⟨hcall, k, hk, hstyle, fun m hm hkm => ?_⟩
      rw [← getElem?_concat link hm]
      exact hcalls m (Nat.lt_succ_of_lt hm) hkm
    · rw [hlast] at hstyle
      exact Or.inl (Option.some.inj hstyle)
  · intro h
    rcases h with rfl | ⟨hcall, k, hk, hstyle, hcalls⟩
    · exact ⟨links.length, Nat.lt_succ_self _, hlast, fun m hm hkm => absurd hm (by omega)⟩
    · refine ⟨k, Nat.lt_succ_of_lt hk, (getElem?_concat link hk).trans hstyle, fun m hm hkm => ?_⟩
      rcases Nat.lt_succ_iff_lt_or_eq.1 hm with hm | rfl
      · rw [getElem?_concat link hm]
        exact hcalls m hm hkm
      · rw [hlast]
        exact hcall

theorem noClassBetween_concat (link : Link) (hj : j ≤ links.length) :
    NoClassBetween (links ++ [link]) i j ↔ NoClassBetween links i j := by
  refine forall₂_congr fun m hm => ?_
  rw [getElem?_concat link (Nat.lt_of_lt_of_le hm hj)]

theorem gatingCall?_concat (arguments : List Argument) (link : Link) (hj : j < links.length) :
    gatingCall? arguments (links ++ [link]) i j = gatingCall? arguments links i j := by
  unfold gatingCall?
  simp only [noClassBetween_concat link (Nat.le_of_lt hj), styleWaits_concat link (Nat.le_of_lt hj),
    getElem?_concat link hj]

/-- a further link gates the class of a name when it is a call with content, no `$style` is waiting, and no other name
in between asks for a class -/
theorem gatingCall?_last (arguments : List Argument) (link : Link) (hi : i < links.length) :
    gatingCall? arguments (links ++ [link]) i links.length =
      if NoClassBetween links i links.length ∧ ¬ StyleWaits links links.length then
        (link.content? arguments).map Prod.fst
      else none := by
  unfold gatingCall?
  simp only [noClassBetween_concat link (Nat.le_refl _), styleWaits_concat link (Nat.le_refl _), hi, true_and,
    List.getElem?_concat_length, Option.bind_some]

theorem range_concat (link : Link) :
    List.range (links ++ [link]).length = List.range links.length ++ [links.length] := by
  rw [List.length_append, List.length_singleton, List.range_succ]

/-- a function of the positions of longer links that does not see the further one -/
theorem filterMap_concat {α : Type} {f g : Nat → Option α} (link : Link) (h : ∀ i < links.length, f i = g i) :
    (List.range (links ++ [link]).length).filterMap f =
      (List.range links.length).filterMap g ++ (f links.length).toList := by
  rw [range_concat, List.filterMap_append, List.filterMap_congr fun i hi => h i (List.mem_range.1 hi),
    List.filterMap_cons]
  cases f links.length <;> rfl

theorem gateAt_concat (arguments : List Argument) (link : Link) (i : Nat) :
    gateAt arguments (links ++ [link]) i =
      match gatingCall? arguments (links ++ [link]) i links.length with
      | some index => .argument index
      | none => gateAt arguments links i := by
  unfold gateAt
  rw [filterMap_concat link fun j hj => gatingCall?_concat arguments link hj]
  cases gatingCall? arguments (links ++ [link]) i links.length with
  | none => simp
  | some index => simp

/-- no call stands behind the last link -/
theorem gateAt_last (arguments : List Argument) (links : List Link) (link : Link) :
    gateAt arguments (links ++ [link]) links.length = .always := by
  have hnone : (List.range (links ++ [link]).length).filterMap
      (gatingCall? arguments (links ++ [link]) links.length) = [] := by
    rw [List.filterMap_eq_nil_iff]
    intro j hj
    rw [List.mem_range, List.length_append, List.length_singleton] at hj
    exact if_neg fun h => absurd h.1 (by omega)
  rw [gateAt, hnone]
  rfl

theorem candidateAt?_concat (arguments : List Argument) (link : Link) (hi : i < links.length) :
    candidateAt? arguments (links ++ [link]) i =
      (candidateAt? arguments links i).map fun c =>
        match gatingCall? arguments (links ++ [link]) i links.length with
        | some index => { c with gate := .argument index }
        | none => c := by
  unfold candidateAt?
  rw [getElem?_concat link hi, List.take_append_of_le_length (Nat.le_of_lt hi), gateAt_concat]
  rcases links[i]? with _ | ⟨name⟩ | index
  · rfl
  · simp only
    split
    · rw [Option.map_some]
      cases gatingCall? arguments (links ++ [link]) i links.length <;> rfl
    · rfl
  · rfl

/-- the candidate of a further link, if it asks for a class -/
def Link.candidate? (responsive : Bool) : Link → Option Candidate
  | .access name =>
    if (Link.access name).asksClass then some ⟨Interpreter.keyOf name, responsive, .always⟩ else none
  | .call _ => none

theorem candidateAt?_last (arguments : List Argument) (links : List Link) (link : Link) :
    candidateAt? arguments (links ++ [link]) links.length =
      link.candidate? (decide (.access responsiveName ∈ links)) := by
  unfold candidateAt?
  rw [List.getElem?_concat_length, List.take_left' rfl, gateAt_last]
  cases link <;> rfl

theorem isSome_candidateAt? (arguments : List Argument) (links : List Link) (i : Nat) :
    (candidateAt? arguments links i).isSome = links[i]?.any Link.asksClass := by
  unfold candidateAt?
  rcases links[i]? with _ | ⟨name⟩ | index
  · rfl
  · simp only [Option.any_some]
    split
    · rename_i h
      exact h.symm
    · rename_i h
      exact (Bool.not_eq_true _ ▸ h).symm
  · rfl

/-- a further link that gates nothing adds the candidate that it asks for, if any -/
theorem candidatesOf_concat (hquiet : link.content? arguments = none ∨ StyleWaits links links.length) :
    candidatesOf arguments (links ++ [link]) =
      candidatesOf arguments links ++ (link.candidate? (decide (.access responsiveName ∈ links))).toList := by
  unfold candidatesOf
  rw [← candidateAt?_last arguments]
  refine filterMap_concat link fun i hi => ?_
  have hnone : gatingCall? arguments (links ++ [link]) i links.length = none := by
    rw [gatingCall?_last arguments link hi]
    split
    · rename_i h
      rw [hquiet.resolve_right h.2]
      rfl
    · rfl
  rw [candidateAt?_concat arguments link hi, hnone]
  exact Option.map_id'

namespace Interpreter

/-- gating the last of the candidates found at positions: the one behind which no other is found -/
theorem gateLast_filterMap {f g : Nat → Option Candidate} {n index : Nat}
    (h : ∀ i < n, g i = if ∀ m < n, i < m → (f m).isSome = false then
      (f i).map fun c => { c with gate := .argument index } else f i) :
    (List.range n).filterMap g = gateLast index ((List.range n).filterMap f) := by
  induction n with
  | zero => rfl
  | succ n ih =>
    have hlast : g n = (f n).map fun c => { c with gate := .argument index } := by
      rw [h n (Nat.lt_succ_self n), if_pos fun m hm hnm => absurd hm (by omega)]
    rw [List.range_succ, List.filterMap_append, List.filterMap_append]
    cases hf : f n with
    | none =>
      rw [hf] at hlast
      rw [List.filterMap_cons_none hlast, List.filterMap_cons_none hf]
      simp only [List.filterMap_nil, List.append_nil]
      refine ih fun i hi => ?_
      rw [h i (Nat.lt_succ_of_lt hi)]
      refine if_congr ?_ rfl rfl
      constructor
      · exact fun hall m hm => hall m (Nat.lt_succ_of_lt hm)
      · intro hall m hm him
        rcases Nat.lt_succ_iff_lt_or_eq.1 hm with hm | rfl
        · exact hall m hm him
        · rw [hf]
          rfl
    | some c =>
      rw [hf] at hlast
      have hsame : (List.range n).filterMap g = (List.range n).filterMap f := by
        refine List.filterMap_congr fun i hi => ?_
        have hi := List.mem_range.1 hi
        rw [h i (Nat.lt_succ_of_lt hi), if_neg]
        intro hall
        have := hall n (Nat.lt_succ_self n) hi
        rw [hf] at this
        cases this
      rw [hsame, List.filterMap_cons_some hlast, List.filterMap_cons_some hf]
      exact (gateLast_concat index _ c).symm

end Interpreter

/-- a further call with content gates the last candidate, unless a `$style` is waiting for it -/
theorem candidatesOf_concat_gating {index : Nat} {a : Argument} (hcontent : link.content? arguments = some (index, a))
    (hwaits : ¬ StyleWaits links links.length) :
    candidatesOf arguments (links ++ [link]) = Interpreter.gateLast index (candidatesOf arguments links) := by
  have hlast : candidateAt? arguments (links ++ [link]) links.length = none := by
    rw [candidateAt?_last]
    cases link with
    | access name => cases hcontent
    | call => rfl
  unfold candidatesOf
  rw [filterMap_concat link fun _ _ => rfl, hlast, Option.toList_none, List.append_nil]
  refine Interpreter.gateLast_filterMap fun i hi => ?_
  rw [candidateAt?_concat arguments link hi, gatingCall?_last arguments link hi, hcontent, Option.map_some]
  simp only [isSome_candidateAt?, hwaits, not_false_iff, and_true]
  by_cases hbetween : NoClassBetween links i links.length
  · rw [if_pos hbetween]
    exact (if_pos hbetween).symm
  · rw [if_neg hbetween]
    exact Option.map_id'.trans (if_neg hbetween).symm

theorem literalsOf_concat (arguments : List Argument) (links : List Link) (link : Link) :
    literalsOf arguments (links ++ [link]) =
      literalsOf arguments links ++
        if StyleWaits links links.length then ((link.content? arguments).map fun p => .spread p.2.raw).toList
        else [] := by
  unfold literalsOf
  rw [filterMap_concat (g := literalAt? arguments links) link]
  · unfold literalAt?
    simp only [styleWaits_concat link (Nat.le_refl _), List.getElem?_concat_length, Option.bind_some]
    split <;> rfl
  · intro i hi
    unfold literalAt?
    simp only [styleWaits_concat link (Nat.le_of_lt hi), getElem?_concat link hi]

theorem candidatesOf_ne_nil_iff :
    candidatesOf arguments links ≠ [] ↔ ∃ i < links.length, links[i]?.any Link.asksClass = true := by
  unfold candidatesOf
  rw [Ne, List.filterMap_eq_nil_iff]
  simp only [List.mem_range, ← isSome_candidateAt? arguments, ← Option.not_isSome_iff_eq_none, not_forall, not_not,
    exists_prop]

/-! ## States read off links -/

namespace Interpreter

variable {root : Text} {s : Interpreter}

/-- the state that links lead to when none of them fails -/
def readOff (arguments : List Argument) (links : List Link) : Interpreter where
  arguments := arguments
  candidates := candidatesOf arguments links
  declarations := literalsOf arguments links
  responsive := decide (.access responsiveName ∈ links)
  stylePending := decide (StyleWaits links links.length)
  finished := decide (.access finishName ∈ links)

theorem readOff_nil (arguments : List Argument) : readOff arguments [] = { arguments } := by
  have hwaits : ¬ StyleWaits [] 0 := fun ⟨k, hk, _⟩ => absurd hk (Nat.not_lt_zero k)
  simp [readOff, candidatesOf, literalsOf, hwaits]

/-- what a further link needs behind links that did not fail -/
structure Fits (arguments : List Argument) (links : List Link) (link : Link) : Prop where
  ends : .access finishName ∉ links
  calls : ∀ index, link = .call index → index < arguments.length
  named : link.isCall = true → ¬ StyleWaits links links.length → candidatesOf arguments links ≠ []

/-- what a further name changes -/
theorem readOff_concat_name (arguments : List Argument) (links : List Link) (name : Text) :
    readOff arguments (links ++ [.access name]) =
      { readOff arguments links with
          candidates := candidatesOf arguments links ++
            ((Link.access name).candidate? (decide (.access responsiveName ∈ links))).toList
          responsive := decide (.access responsiveName ∈ links ∨ name = responsiveName)
          stylePending := decide (name = styleName ∨ StyleWaits links links.length)
          finished := decide (.access finishName ∈ links ∨ name = finishName) } := by
  have hliterals : literalsOf arguments (links ++ [.access name]) = literalsOf arguments links := by
    rw [literalsOf_concat]
    simp [Link.content?]
  have hcandidates : candidatesOf arguments (links ++ [.access name]) = _ := candidatesOf_concat (Or.inl rfl)
  simp only [readOff, hcandidates, hliterals, styleWaits_behind, List.mem_append, List.mem_singleton,
    Link.access.injEq, Link.isCall, true_and, eq_comm]

/-- a name that switches a mode asks for no class -/
theorem candidate?_mode {name : Text} (h : name ∈ modeNames) (responsive : Bool) :
    (Link.access name).candidate? responsive = none :=
  if_neg (by simp [Link.asksClass, h])

/-- a name that follows no finishing one leads on -/
theorem access_readOff {name : Text} (hplain : name ≠ preloadName) (hopen : .access finishName ∉ links) :
    (readOff arguments links).access name = (readOff arguments (links ++ [.access name]), none) := by
  have hfin : (readOff arguments links).finished = false := decide_eq_false hopen
  have hapart : finishName ≠ responsiveName ∧ finishName ≠ styleName ∧ responsiveName ≠ styleName := by decide
  have haccess := access_accessed (readOff arguments links) name
  generalize (readOff arguments links).access name = r at haccess
  obtain ⟨s', fault⟩ := r
  rw [readOff_concat_name]
  generalize hfault : fault = f at haccess
  cases haccess with
  | afterFinish h =>
    rw [hfin] at h
    cases h
  | finish _ hname =>
    subst hname
    have hmode : finishName ∈ modeNames := by decide
    simp [readOff, candidate?_mode hmode, hapart]
  | responsive _ hname =>
    subst hname
    have hmode : responsiveName ∈ modeNames := by decide
    simp [readOff, candidate?_mode hmode, hapart, hapart.1.symm]
  | style _ hname =>
    subst hname
    have hmode : styleName ∈ modeNames := by decide
    simp [readOff, candidate?_mode hmode, hapart.2.1.symm, hapart.2.2.symm]
  | preload _ hname => exact absurd hname hplain
  | candidate _ hfinish hresponsive hstyle hpreload =>
    have hasks : (Link.access name).asksClass = true := by
      simp [Link.asksClass, modeNames, hfinish, hresponsive, hstyle, hpreload]
    simp [readOff, Link.candidate?, hasks, hfinish, hresponsive, hstyle]

theorem content?_call {index : Nat} (h : index < arguments.length) :
    (Link.call index).content? arguments =
      if arguments[index].isEmpty then none else some (index, arguments[index]) := by
  rw [Link.content?, List.getElem?_eq_getElem h]
  cases hempty : arguments[index].isEmpty <;> simp [Option.filter, hempty]

/-- what a further call changes -/
theorem readOff_concat_call (arguments : List Argument) (links : List Link) (index : Nat) :
    readOff arguments (links ++ [.call index]) =
      { readOff arguments links with
          candidates := candidatesOf arguments (links ++ [.call index])
          declarations := literalsOf arguments (links ++ [.call index])
          stylePending := false } := by
  have hwaits : ¬ StyleWaits (links ++ [Link.call index]) (links ++ [Link.call index]).length := by
    rw [styleWaits_behind]
    simp [Link.isCall]
  simp only [readOff, decide_eq_false hwaits]
  simp

/-- a call that fits leads on -/
theorem call_readOff {index : Nat} (h : Fits arguments links (.call index)) :
    step root (readOff arguments links) (.call index) = (readOff arguments (links ++ [.call index]), none) := by
  have hfin : (readOff arguments links).finished = false := decide_eq_false h.ends
  have hindex := h.calls index rfl
  have ha : (readOff arguments links).arguments[index]? = some arguments[index] := List.getElem?_eq_getElem hindex
  have hliterals := literalsOf_concat arguments links (.call index)
  rw [content?_call hindex] at hliterals
  rw [readOff_concat_call]
  by_cases hstyle : StyleWaits links links.length
  · refine (Called.literal hfin ha (decide_eq_true hstyle)).eq.trans (congrArg (Prod.mk · none) ?_)
    rw [if_pos hstyle] at hliterals
    rw [candidatesOf_concat (Or.inr hstyle), hliterals]
    cases hempty : arguments[index].isEmpty <;> simp [addLiteral, readOff, Link.candidate?, hempty]
  · have hnamed : (readOff arguments links).candidates ≠ [] := h.named rfl hstyle
    refine (Called.gated hfin ha (decide_eq_false hstyle) rfl hnamed).eq.trans (congrArg (Prod.mk · none) ?_)
    rw [if_neg hstyle, List.append_nil] at hliterals
    rw [hliterals]
    cases hempty : arguments[index].isEmpty with
    | true =>
      have hquiet : (Link.call index).content? arguments = none := by rw [content?_call hindex, if_pos hempty]
      rw [candidatesOf_concat (Or.inl hquiet)]
      simp [gateBy, readOff, Link.candidate?, hempty, hstyle]
    | false =>
      have hfull : (Link.call index).content? arguments = some (index, arguments[index]) := by
        rw [content?_call hindex, if_neg (by simp [hempty])]
      rw [candidatesOf_concat_gating hfull hstyle]
      simp [gateBy, readOff, hempty, hstyle]

/-- **A link that fits leads to what is read off the links with it.** -/
theorem step_readOff (hplain : link ≠ .access preloadName) (h : Fits arguments links link) :
    step root (readOff arguments links) link = (readOff arguments (links ++ [link]), none) := by
  cases link with
  | access name => exact access_readOff (fun hname => hplain (hname ▸ rfl)) h.ends
  | call index => exact call_readOff h

/-- **A link that does not fit fails.** -/
theorem fits_of_step (h : (step root (readOff arguments links) link).2 = none) : Fits arguments links link := by
  cases link with
  | access name =>
    refine ⟨fun hfin => ?_, nofun, nofun⟩
    have hrefused := accessed_refused (access_accessed (readOff arguments links) name) (decide_eq_true hfin)
    rw [show ((readOff arguments links).access name).2 = none from h] at hrefused
    cases hrefused.2
  | call index =>
    have hcall := callWith_called (preload root) root (readOff arguments links) index
    rw [show (callWith (preload root) root (readOff arguments links) index).2 = none from h] at hcall
    generalize (callWith (preload root) root (readOff arguments links) index).1 = m at hcall
    generalize hfault : (none : Option Fault) = fault at hcall
    have hbelow {a : Argument} (ha : (readOff arguments links).arguments[index]? = some a) :
        ∀ i, Link.call index = .call i → i < arguments.length := by
      rintro _ ⟨⟩
      exact (List.getElem?_eq_some_iff.1 ha).1
    cases hcall with
    | afterFinish | noArgument | preloadFailed | withoutName => cases hfault
    | literal hfin ha hstyle =>
      exact ⟨of_decide_eq_false hfin, hbelow ha, fun _ hwaits => absurd (of_decide_eq_true hstyle) hwaits⟩
    | skipped _ _ _ hpreload | preloaded _ _ _ hpreload => cases hpreload
    | gated hfin ha _ _ hnamed => exact ⟨of_decide_eq_false hfin, hbelow ha, fun _ _ => hnamed⟩

/-! ## Runs -/

theorem runnable_nil (arguments : List Argument) : Runnable arguments [] :=
  ⟨nofun, nofun, nofun⟩

/-- links can be run if those in front of the last one can, and the last one fits -/
theorem runnable_concat :
    Runnable arguments (links ++ [link]) ↔ Runnable arguments links ∧ Fits arguments links link := by
  have hlength : (links ++ [link]).length = links.length + 1 := List.length_append
  have hlast : (links ++ [link])[links.length]? = some link := List.getElem?_concat_length
  have hnamed (j : Nat) (hj : j ≤ links.length) : (∃ i < j, (links ++ [link])[i]?.any Link.asksClass = true) ↔
      ∃ i < j, links[i]?.any Link.asksClass = true := by
    refine exists_congr fun i => and_congr_right fun hi => ?_
    rw [getElem?_concat link (Nat.lt_of_lt_of_le hi hj)]
  constructor
  · intro h
    refine ⟨⟨fun i hi hfin => ?_, fun index hmem => ?_, fun j hj hcall hwaits => ?_⟩, ?_, ?_, ?_⟩
    · have := h.ends i (by omega) ((getElem?_concat link hi).trans hfin)
      omega
    · exact h.calls index (List.mem_append_left _ hmem)
    · rw [← getElem?_concat link hj] at hcall
      rw [← styleWaits_concat link (Nat.le_of_lt hj)] at hwaits
      exact (hnamed j (Nat.le_of_lt hj)).1 (h.named j (by omega) hcall hwaits)
    · intro hmem
      obtain ⟨i, hi, hget⟩ := List.mem_iff_getElem.1 hmem
      have hfin : links[i]? = some (.access finishName) := List.getElem?_eq_some_iff.2 ⟨hi, hget⟩
      have := h.ends i (by omega) ((getElem?_concat link hi).trans hfin)
      omega
    · intro index hlink
      exact h.calls index (List.mem_append_right _ (List.mem_singleton.2 hlink.symm))
    · intro hcall hwaits
      rw [← styleWaits_concat link (Nat.le_refl _)] at hwaits
      have := h.named links.length (by omega) (by rw [hlast]; exact hcall) hwaits
      exact candidatesOf_ne_nil_iff.2 ((hnamed links.length (Nat.le_refl _)).1 this)
  · intro h
    obtain ⟨hfront, hfits⟩ := h
    have hcases {i : Nat} (hi : i < (links ++ [link]).length) : i < links.length ∨ i = links.length := by omega
    refine ⟨fun i hi hfin => ?_, fun index hmem => ?_, fun j hj hcall hwaits => ?_⟩
    · rcases hcases hi with hi | rfl
      · rw [getElem?_concat link hi] at hfin
        exact absurd (List.mem_of_getElem? hfin) hfits.ends
      · exact hlength.symm
    · rcases List.mem_append.1 hmem with hmem | hmem
      · exact hfront.calls index hmem
      · exact hfits.calls index (List.mem_singleton.1 hmem).symm
    · rcases hcases hj with hj | rfl
      · rw [getElem?_concat link hj] at hcall
        rw [styleWaits_concat link (Nat.le_of_lt hj)] at hwaits
        exact (hnamed j (Nat.le_of_lt hj)).2 (hfront.named j hj hcall hwaits)
      · rw [hlast] at hcall
        rw [styleWaits_concat link (Nat.le_refl _)] at hwaits
        exact (hnamed links.length (Nat.le_refl _)).2 (candidatesOf_ne_nil_iff.1 (hfits.named hcall hwaits))

theorem run_concat (root : Text) (s : Interpreter) (links : List Link) (link : Link) :
    run root s (links ++ [link]) =
      match run root s links with
      | (m, none) => step root m link
      | (m, some fault) => (m, some fault) := by
  induction links generalizing s with
  | nil =>
    rw [List.nil_append, run_cons]
    change _ = step root s link
    rcases step root s link with ⟨m, _ | fault⟩ <;> rfl
  | cons first rest ih =>
    rw [List.cons_append, run_cons, run_cons]
    rcases step root s first with ⟨m, _ | fault⟩
    · exact ih m
    · rfl

/-- **When a run succeeds**, and the state that it ends in. -/
theorem run_readOff (root : Text) (arguments : List Argument) (hplain : .access preloadName ∉ links) :
    ((run root { arguments } links).2 = none ↔ Runnable arguments links) ∧
      (Runnable arguments links → run root { arguments } links = (readOff arguments links, none)) := by
  induction links using List.reverseRecOn with
  | nil =>
    rw [readOff_nil]
    exact ⟨⟨fun _ => runnable_nil arguments, fun _ => rfl⟩, fun _ => rfl⟩
  | append_singleton links link ih =>
    rw [List.mem_append, List.mem_singleton, not_or] at hplain
    obtain ⟨hiff, hrun⟩ := ih hplain.1
    rw [runnable_concat, run_concat]
    by_cases hrunnable : Runnable arguments links
    · rw [hrun hrunnable]
      simp only [hrunnable, true_and]
      have hstep (h : Fits arguments links link) : step root (readOff arguments links) link = _ :=
        step_readOff (Ne.symm hplain.2) h
      refine ⟨⟨fits_of_step, fun h => ?_⟩, hstep⟩
      rw [hstep h]
    · have hfails : (run root { arguments } links).2 ≠ none := fun h => hrunnable (hiff.1 h)
      simp only [hrunnable, false_and, iff_false, false_imp_iff, and_true]
      rcases hresult : run root { arguments } links with ⟨m, _ | fault⟩
      · rw [hresult] at hfails
        exact absurd rfl hfails
      · exact nofun

/-- **The meaning of a chain without preloads.** It runs if and only if nothing follows the finishing name, every call is
on an argument that exists, and every call that no `$style` is waiting for comes behind a name that asks for a class.
Then the finished chain has the implicit class, a candidate for each name that asks for a class, in order, and the
literal styles of the calls with content that a `$style` was waiting for, in order. -/
theorem run_meaning (root : Text) (arguments : List Argument) {links : List Link}
    (hplain : .access preloadName ∉ links) :
    ((run root { arguments } links).2 = none ↔ Runnable arguments links) ∧
      ∀ s, run root { arguments } links = (s, none) → s.outcome.finish =
        ⟨⟨implicitKey, false, .always⟩ :: candidatesOf arguments links, literalsOf arguments links⟩ := by
  obtain ⟨hiff, hrun⟩ := run_readOff root arguments hplain
  refine ⟨hiff, fun s hs => ?_⟩
  have hrunnable : Runnable arguments links := hiff.1 (congrArg Prod.snd hs)
  obtain rfl : readOff arguments links = s := congrArg Prod.fst ((hrun hrunnable).symm.trans hs)
  rfl

/-- modes that are switched on long before the calls that they are for, repeated, and calls repeated and empty -/
def interleavedLinks : List Link :=
  [.access "a_b".toList, .access styleName, .access responsiveName, .call 0, .access styleName, .access "c".toList,
    .access styleName, .call 1, .call 0, .call 2, .call 1, .call 1, .call 0, .call 2, .access styleName,
    .access finishName]

/-- the last call with content counts; the empty one behind it does not, and no call behind `c` goes to `a-b` -/
theorem run_meaning_interleaved :
    let arguments : List Argument := [.classify "x".toList, .classify "y".toList, .classify " ".toList]
    (run "SS".toList { arguments } interleavedLinks).2 = none ∧
      ∀ s, run "SS".toList { arguments } interleavedLinks = (s, none) → s.outcome.finish =
        ⟨[⟨"flex".toList, false, .always⟩, ⟨"a-b".toList, false, .always⟩, ⟨"c".toList, true, .argument 0⟩],
          [.spread "x".toList, .spread "y".toList]⟩ := by
  intro arguments
  have hplain : .access preloadName ∉ interleavedLinks := by decide
  obtain ⟨_, hfinish⟩ := run_meaning "SS".toList arguments hplain
  refine ⟨rfl, fun s hs => (hfinish s hs).trans ?_⟩
  decide

end Interpreter

end TerseStyle.Chain

/-
What a chain means, read off its spelling. Here a call holds its argument itself, and a preloaded chain is the chain
spelled in its payload: there are no indices, no shared list of arguments and no order in which arguments were lifted.
`Runs` is the relation between the states before and after a row of written links, `Means` between a text and what it
comes to. Both describe success only; a chain that fails means nothing.

Results:
- `Runs.deterministic`, `Means.unique`: a text means one thing.
- `runs_append`: a run of one row of links behind another is a run of each.
- `Runs.behind`: candidates and styles in front of a run stay in front of what it adds.
- `Runs.pending`: which modes are left on at the end can be read off the links.
-/
import TerseStyle.Chain.Interpreter
import TerseStyle.Proofs.Chain.FrontEnd

namespace TerseStyle.Chain

open Text (isBlankOnly)

/-! ## States -/

/-- a candidate with the argument that gates it -/
structure BoundCandidate where
  key : Text
  responsive : Bool
  gate : Option Argument
  deriving DecidableEq, Repr

/-- the candidates and styles that a chain comes to -/
structure Meaning where
  candidates : List BoundCandidate
  declarations : List Declaration
  deriving DecidableEq, Repr

/-- puts the implicit class in front -/
def Meaning.finish (m : Meaning) : Meaning :=
  { m with candidates := ⟨implicitKey, false, none⟩ :: m.candidates }

/-- how far a chain has come -/
structure Progress where
  candidates : List BoundCandidate := []
  declarations : List Declaration := []
  responsive : Bool := false
  stylePending : Bool := false
  preloadPending : Bool := false
  finished : Bool := false
  deriving DecidableEq, Repr

namespace Progress

/-- what the chain has come to -/
def meaning (p : Progress) : Meaning := ⟨p.candidates, p.declarations⟩

/-- a name -/
def access (p : Progress) (name : Text) : Progress :=
  if name = finishName then { p with finished := true }
  else if name = responsiveName then { p with responsive := true }
  else if name = styleName then { p with stylePending := true }
  else if name = preloadName then { p with preloadPending := true }
  else { p with candidates := p.candidates ++ [⟨Interpreter.keyOf name, p.responsive, none⟩] }

/-- a literal style object; an empty call adds none -/
def literal (p : Progress) (payload : Text) : Progress :=
  { p with
      stylePending := false
      declarations := if isBlankOnly payload then p.declarations else p.declarations ++ [.spread payload] }

/-- gates the last candidate by an argument -/
def gateLast (a : Argument) : List BoundCandidate → List BoundCandidate
  | [] => []
  | [c] => [{ c with gate := some a }]
  | c :: rest => c :: gateLast a rest

/-- a gate for the last candidate; an empty call gates nothing -/
def gate (p : Progress) (payload : Text) : Progress :=
  if isBlankOnly payload then p else { p with candidates := gateLast (.classify payload) p.candidates }

/-- the candidates and styles of a preloaded chain -/
def preload (p : Progress) (m : Meaning) : Progress :=
  { p with
      preloadPending := false
      candidates := p.candidates ++ m.candidates
      declarations := p.declarations ++ m.declarations }

/-- candidates and styles put in front of what a chain has come to -/
def behind (m : Meaning) (p : Progress) : Progress :=
  { p with
      candidates := m.candidates ++ p.candidates
      declarations := m.declarations ++ p.declarations }

end Progress

/-! ## Runs -/

/-- a row of links takes a chain from one state to another -/
inductive Runs (root : Text) : Progress → List SourceLink → Progress → Prop
  | done {p : Progress} : Runs root p [] p
  | access {p q : Progress} {name : Text} {rest : List SourceLink} : p.finished = false →
      Runs root (p.access name) rest q → Runs root p (.access name :: rest) q
  | literal {p q : Progress} {payload : Text} {rest : List SourceLink} : p.finished = false → p.stylePending = true →
      Runs root (p.literal payload) rest q → Runs root p (.call payload :: rest) q
  /-- an empty call preloads nothing -/
  | skip {p q : Progress} {payload : Text} {rest : List SourceLink} : p.finished = false → p.stylePending = false →
      p.preloadPending = true → isBlankOnly payload = true → Runs root { p with preloadPending := false } rest q →
      Runs root p (.call payload :: rest) q
  /-- a preloaded chain runs from the start, in a state of its own -/
  | preload {p q inner : Progress} {payload : Text} {links rest : List SourceLink} : p.finished = false →
      p.stylePending = false → p.preloadPending = true → isBlankOnly payload = false →
      SpelledChain root links payload → Runs root {} links inner → Runs root (p.preload inner.meaning) rest q →
      Runs root p (.call payload :: rest) q
  | gate {p q : Progress} {payload : Text} {rest : List SourceLink} : p.finished = false → p.stylePending = false →
      p.preloadPending = false → p.candidates ≠ [] → Runs root (p.gate payload) rest q →
      Runs root p (.call payload :: rest) q

/-- what a text comes to as a chain -/
def Means (root t : Text) (m : Meaning) : Prop :=
  ∃ links p, SpelledChain root links t ∧ Runs root {} links p ∧ p.meaning = m

/-- a run of given links from a given state ends in one state -/
theorem Runs.deterministic {root : Text} {p q r : Progress} {links : List SourceLink} (hq : Runs root p links q)
    (hr : Runs root p links r) : q = r := by
  induction hq generalizing r with
  | done => cases hr; rfl
  | access _ _ ih => cases hr with | access _ h => exact ih h
  | literal _ hstyle _ ih =>
    cases hr with
    | literal _ _ h => exact ih h
    | skip _ h | preload _ h | gate _ h => rw [hstyle] at h; cases h
  | skip _ hstyle hpreload hblank _ ih =>
    cases hr with
    | literal _ h => rw [hstyle] at h; cases h
    | skip _ _ _ _ h => exact ih h
    | preload _ _ _ h => rw [hblank] at h; cases h
    | gate _ _ h => rw [hpreload] at h; cases h
  | preload _ hstyle hpreload hblank hspelled _ _ ihInner ih =>
    cases hr with
    | literal _ h => rw [hstyle] at h; cases h
    | skip _ _ _ h => rw [hblank] at h; cases h
    | preload _ _ _ _ hspelled' hinner h =>
      obtain rfl := hspelled.unique hspelled'
      obtain rfl := ihInner hinner
      exact ih h
    | gate _ _ h => rw [hpreload] at h; cases h
  | gate _ hstyle hpreload _ _ ih =>
    cases hr with
    | literal _ h => rw [hstyle] at h; cases h
    | skip _ _ h | preload _ _ h => rw [hpreload] at h; cases h
    | gate _ _ _ _ h => exact ih h

/-- **A text means one thing.** -/
theorem Means.unique {root t : Text} {m n : Meaning} (hm : Means root t m) (hn : Means root t n) : m = n := by
  obtain ⟨ls, p, hls, hp, rfl⟩ := hm
  obtain ⟨ks, q, hks, hq, rfl⟩ := hn
  obtain rfl := hls.unique hks
  rw [hp.deterministic hq]

theorem runs_append {root : Text} {p q : Progress} {as bs : List SourceLink} :
    Runs root p (as ++ bs) q ↔ ∃ m, Runs root p as m ∧ Runs root m bs q := by
  constructor
  · intro h
    induction as generalizing p with
    | nil => exact ⟨p, .done, h⟩
    | cons a as ih =>
      cases h with
      | access hfin h =>
        obtain ⟨m, ha, hb⟩ := ih h
        exact ⟨m, .access hfin ha, hb⟩
      | literal hfin hstyle h =>
        obtain ⟨m, ha, hb⟩ := ih h
        exact ⟨m, .literal hfin hstyle ha, hb⟩
      | skip hfin hstyle hpreload hblank h =>
        obtain ⟨m, ha, hb⟩ := ih h
        exact ⟨m, .skip hfin hstyle hpreload hblank ha, hb⟩
      | preload hfin hstyle hpreload hblank hspelled hinner h =>
        obtain ⟨m, ha, hb⟩ := ih h
        exact ⟨m, .preload hfin hstyle hpreload hblank hspelled hinner ha, hb⟩
      | gate hfin hstyle hpreload hne h =>
        obtain ⟨m, ha, hb⟩ := ih h
        exact ⟨m, .gate hfin hstyle hpreload hne ha, hb⟩
  · intro h
    obtain ⟨m, ha, hb⟩ := h
    induction ha with
    | done => exact hb
    | access hfin _ ih => exact .access hfin (ih hb)
    | literal hfin hstyle _ ih => exact .literal hfin hstyle (ih hb)
    | skip hfin hstyle hpreload hblank _ ih => exact .skip hfin hstyle hpreload hblank (ih hb)
    | preload hfin hstyle hpreload hblank hspelled hinner _ _ ih =>
      exact .preload hfin hstyle hpreload hblank hspelled hinner (ih hb)
    | gate hfin hstyle hpreload hne _ ih => exact .gate hfin hstyle hpreload hne (ih hb)

/-! ## What stands in front of a run -/

namespace Progress

theorem gateLast_append (a : Argument) (cs : List BoundCandidate) {ds : List BoundCandidate} (hds : ds ≠ []) :
    gateLast a (cs ++ ds) = cs ++ gateLast a ds := by
  induction cs with
  | nil => rfl
  | cons c cs ih =>
    obtain ⟨d, more, hcons⟩ := List.exists_cons_of_ne_nil (List.append_ne_nil_of_right_ne_nil cs hds)
    rw [List.cons_append, List.cons_append, ← ih, hcons]; rfl

theorem behind_access (m : Meaning) (p : Progress) (name : Text) :
    (p.behind m).access name = (p.access name).behind m := by
  unfold access
  split_ifs <;> simp [behind]

theorem behind_literal (m : Meaning) (p : Progress) (payload : Text) :
    (p.behind m).literal payload = (p.literal payload).behind m := by
  unfold literal behind
  split <;> simp

theorem behind_gate (m : Meaning) {p : Progress} (hp : p.candidates ≠ []) (payload : Text) :
    (p.behind m).gate payload = (p.gate payload).behind m := by
  unfold gate
  split
  · rfl
  · simp only [behind, gateLast_append _ _ hp]

theorem behind_preload (m n : Meaning) (p : Progress) : (p.behind m).preload n = (p.preload n).behind m := by
  simp [preload, behind]

end Progress

/-- a run takes no notice of candidates and styles in front of its own -/
theorem Runs.behind {root : Text} {p q : Progress} {links : List SourceLink} (m : Meaning) (h : Runs root p links q) :
    Runs root (p.behind m) links (q.behind m) := by
  induction h with
  | done => exact .done
  | access hfin _ ih => exact .access hfin (by rwa [Progress.behind_access])
  | literal hfin hstyle _ ih => exact .literal hfin hstyle (by rwa [Progress.behind_literal])
  | skip hfin hstyle hpreload hblank _ ih => exact .skip hfin hstyle hpreload hblank ih
  | preload hfin hstyle hpreload hblank hspelled hinner _ _ ih =>
    -- the preloaded chain starts from nothing, so that its own run stays as it is
    exact .preload hfin hstyle hpreload hblank hspelled hinner (by rwa [Progress.behind_preload])
  | gate hfin hstyle hpreload hne _ ih =>
    refine .gate hfin hstyle hpreload ?_ (by rwa [Progress.behind_gate _ hne])
    exact List.append_ne_nil_of_right_ne_nil _ hne

/-! ## Modes -/

/-- the modes that are on behind links: whether a literal style, and whether a preloaded chain, is waited for -/
def pendingBehind : Bool × Bool → List SourceLink → Bool × Bool
  | modes, [] => modes
  | (style, preload), .access name :: rest =>
    pendingBehind (style || name = styleName, preload || name = preloadName) rest
  | (style, preload), .call _ :: rest => pendingBehind (false, preload && style) rest

/-- links that switch nothing on for good -/
def Passing (links : List SourceLink) : Prop :=
  .access responsiveName ∉ links ∧ .access finishName ∉ links ∧ pendingBehind (false, false) links = (false, false)

theorem Progress.access_pending (p : Progress) (name : Text) :
    ((p.access name).stylePending, (p.access name).preloadPending) =
      (p.stylePending || decide (name = styleName), p.preloadPending || decide (name = preloadName)) := by
  have hfinish : finishName ≠ styleName ∧ finishName ≠ preloadName := by decide
  have hresponsive : responsiveName ≠ styleName ∧ responsiveName ≠ preloadName := by decide
  have hstyle : styleName ≠ preloadName := by decide
  unfold access
  split_ifs <;> simp_all

/-- the modes at the end of a run are those that its links leave on -/
theorem Runs.pending {root : Text} {p q : Progress} {links : List SourceLink} (h : Runs root p links q) :
    (q.stylePending, q.preloadPending) = pendingBehind (p.stylePending, p.preloadPending) links := by
  induction h with
  | done => rfl
  | access _ _ ih => rw [ih, Progress.access_pending, pendingBehind]
  | literal _ hstyle _ ih =>
    rw [ih, pendingBehind, hstyle]
    simp [Progress.literal]
  | skip _ hstyle _ _ _ ih =>
    rw [ih, pendingBehind, hstyle]
    simp
  | preload _ hstyle _ _ _ _ _ _ ih =>
    rw [ih, pendingBehind, hstyle]
    simp [Progress.preload, hstyle]
  | @gate p _ payload _ _ hstyle hpreload _ _ ih =>
    have hgate : (p.gate payload).stylePending = false ∧ (p.gate payload).preloadPending = false := by
      unfold Progress.gate
      split <;> exact ⟨hstyle, hpreload⟩
    rw [ih, pendingBehind, hstyle, hpreload, hgate.1, hgate.2]
    rfl

theorem Progress.access_responsive {p : Progress} {name : Text} (h : name ≠ responsiveName) :
    (p.access name).responsive = p.responsive := by
  unfold access
  split_ifs <;> rfl

theorem Progress.access_finished {p : Progress} {name : Text} (h : name ≠ finishName) :
    (p.access name).finished = p.finished := by
  unfold access
  rw [if_neg h]
  split_ifs <;> rfl

theorem Progress.gate_flags (p : Progress) (payload : Text) :
    (p.gate payload).responsive = p.responsive ∧ (p.gate payload).finished = p.finished := by
  unfold gate
  split <;> exact ⟨rfl, rfl⟩

/-- a run without `$s` keeps the responsive mode, one without the finishing name does not finish the chain -/
theorem Runs.flags {root : Text} {p q : Progress} {links : List SourceLink} (h : Runs root p links q)
    (hs : .access responsiveName ∉ links) (hf : .access finishName ∉ links) :
    q.responsive = p.responsive ∧ q.finished = p.finished := by
  induction h with
  | done => exact ⟨rfl, rfl⟩
  | @access p q name rest _ _ ih =>
    rw [List.mem_cons, not_or] at hs hf
    obtain ⟨hresponsive, hfinished⟩ := ih hs.2 hf.2
    have hname : name ≠ responsiveName := fun h => hs.1 (h ▸ rfl)
    have hname' : name ≠ finishName := fun h => hf.1 (h ▸ rfl)
    rw [hresponsive, hfinished]
    exact ⟨Progress.access_responsive hname, Progress.access_finished hname'⟩
  | literal _ _ _ ih => exact ih (fun h => hs (List.mem_cons_of_mem _ h)) fun h => hf (List.mem_cons_of_mem _ h)
  | skip _ _ _ _ _ ih => exact ih (fun h => hs (List.mem_cons_of_mem _ h)) fun h => hf (List.mem_cons_of_mem _ h)
  | preload _ _ _ _ _ _ _ _ ih =>
    exact ih (fun h => hs (List.mem_cons_of_mem _ h)) fun h => hf (List.mem_cons_of_mem _ h)
  | @gate p q payload rest _ _ _ _ _ ih =>
    obtain ⟨hresponsive, hfinished⟩ :=
      ih (fun h => hs (List.mem_cons_of_mem _ h)) fun h => hf (List.mem_cons_of_mem _ h)
    rw [hresponsive, hfinished]
    exact p.gate_flags payload

end TerseStyle.Chain

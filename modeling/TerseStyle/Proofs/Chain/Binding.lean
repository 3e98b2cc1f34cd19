/-
Indices against arguments. The interpreter works with indices into one list of arguments, to which every preloaded chain
adds its own; the meaning of a chain has each argument in its place. A candidate is bound to its gate when its index
finds that argument, and `Agrees` says so of a whole state. Arguments are only added, so what is bound stays bound.

Results:
- `runText_sound`: a chain that runs means what it comes to, and every candidate is gated by the index of the argument
  of the very call that gated it.
- `runsAlong_of_runs`: a text with a meaning runs, at any depth beyond its length, while its indices stay below the
  limit.
- `preload_means_iff`: both, for a text of a length below the limit.
-/
import Mathlib.Data.List.Forall2
import TerseStyle.Proofs.Chain.Meaning
import TerseStyle.Proofs.Chain.Steps

namespace TerseStyle.Chain

open Text (isBlankOnly)

/-! ## What is bound to what -/

/-- a gate by an index, and the argument that the index finds -/
inductive Gate.BoundBy (arguments : List Argument) : Gate → Option Argument → Prop
  | always : BoundBy arguments .always none
  | argument {index : Nat} {a : Argument} : arguments[index]? = some a → BoundBy arguments (.argument index) (some a)

/-- a candidate, and the same with the argument that its gate finds -/
structure Candidate.BoundBy (arguments : List Argument) (c : Candidate) (b : BoundCandidate) : Prop where
  key : c.key = b.key
  responsive : c.responsive = b.responsive
  gate : c.gate.BoundBy arguments b.gate

/-- an outcome, and the same with the arguments in place -/
structure Outcome.BoundBy (arguments : List Argument) (o : Outcome) (m : Meaning) : Prop where
  candidates : List.Forall₂ (Candidate.BoundBy arguments) o.candidates m.candidates
  declarations : o.declarations = m.declarations

/-- a link, and the written link whose payload its index finds -/
inductive Link.BoundBy (arguments : List Argument) : Link → SourceLink → Prop
  | access (name : Text) : BoundBy arguments (.access name) (.access name)
  | call {index : Nat} {payload : Text} : arguments[index]? = some (.classify payload) →
      BoundBy arguments (.call index) (.call payload)

/-- a state of the interpreter, and how far the chain has come -/
structure Interpreter.Agrees (s : Interpreter) (p : Progress) : Prop where
  candidates : List.Forall₂ (Candidate.BoundBy s.arguments) s.candidates p.candidates
  declarations : s.declarations = p.declarations
  responsive : s.responsive = p.responsive
  stylePending : s.stylePending = p.stylePending
  preloadPending : s.preloadPending = p.preloadPending
  finished : s.finished = p.finished

theorem getElem?_mono {as bs : List Argument} (h : as <+: bs) {index : Nat} {a : Argument}
    (ha : as[index]? = some a) : bs[index]? = some a := by
  obtain ⟨more, rfl⟩ := h
  rw [List.getElem?_append_left (List.getElem?_eq_some_iff.1 ha).1, ha]

theorem Candidate.BoundBy.mono {as bs : List Argument} (h : as <+: bs) {c : Candidate} {b : BoundCandidate}
    (hc : c.BoundBy as b) : c.BoundBy bs b := by
  obtain ⟨hkey, hresponsive, hgate⟩ := hc
  refine ⟨hkey, hresponsive, ?_⟩
  generalize c.gate = g, b.gate = a at hgate
  cases hgate with
  | always => exact .always
  | argument ha => exact .argument (getElem?_mono h ha)

theorem Link.BoundBy.mono {as bs : List Argument} (h : as <+: bs) {link : Link} {source : SourceLink}
    (hl : link.BoundBy as source) : link.BoundBy bs source := by
  cases hl with
  | access name => exact .access name
  | call ha => exact .call (getElem?_mono h ha)

/-- the implicit class is bound to nothing -/
theorem Outcome.BoundBy.finish {arguments : List Argument} {o : Outcome} {m : Meaning} (h : o.BoundBy arguments m) :
    o.finish.BoundBy arguments m.finish :=
  ⟨.cons ⟨rfl, rfl, .always⟩ h.candidates, h.declarations⟩

/-- numbered links find the payloads of the calls that they were numbered from -/
theorem numbered_boundBy (before after : List Argument) (sources : List SourceLink) :
    List.Forall₂ (Link.BoundBy (before ++ ((payloads sources).map Argument.classify ++ after)))
      (numbered before.length sources) sources := by
  induction sources generalizing before with
  | nil => exact .nil
  | cons source sources ih =>
    cases source with
    | access name => exact .cons (.access name) (ih before)
    | call payload =>
      have hsplit : before ++ ((payloads (.call payload :: sources)).map Argument.classify ++ after) =
          (before ++ [.classify payload]) ++ ((payloads sources).map Argument.classify ++ after) := by
        simp [payloads]
      have hrest := ih (before ++ [.classify payload])
      rw [List.length_append] at hrest
      rw [hsplit]
      refine .cons (.call ?_) hrest
      rw [List.append_assoc, List.getElem?_append_right (Nat.le_refl _), Nat.sub_self]; rfl

/-- the links that a chain is read as find the payloads of its calls among the arguments lifted out of it -/
theorem boundBy_of_parse {root t : Text} {arguments : List Argument} {links : List Link}
    (h : parse (lift (Text.trim t) arguments.length).skeleton root = .ok links) :
    ∃ sources, SpelledChain root sources t ∧
      List.Forall₂ (Link.BoundBy (arguments ++ (lift (Text.trim t) arguments.length).arguments)) links sources := by
  obtain ⟨sources, hsources, rfl⟩ := spelled_of_parse h
  refine ⟨sources, hsources.of_trim, ?_⟩
  have := numbered_boundBy arguments [] sources
  rwa [List.append_nil, ← arguments_lift_chain hsources arguments.length] at this

theorem Gate.BoundBy.unique {arguments : List Argument} {g : Gate} {a b : Option Argument} (ha : g.BoundBy arguments a)
    (hb : g.BoundBy arguments b) : a = b := by
  cases ha with
  | always => cases hb; rfl
  | argument h => cases hb with | argument h' => exact h.symm.trans h'

theorem Candidate.BoundBy.unique {arguments : List Argument} {c : Candidate} {b b' : BoundCandidate}
    (h : c.BoundBy arguments b) (h' : c.BoundBy arguments b') : b = b' := by
  obtain ⟨key, responsive, gate⟩ := b
  obtain ⟨key', responsive', gate'⟩ := b'
  rw [BoundCandidate.mk.injEq]
  exact ⟨h.key.symm.trans h'.key, h.responsive.symm.trans h'.responsive, h.gate.unique h'.gate⟩

/-- an outcome is bound to one meaning -/
theorem Outcome.BoundBy.unique {arguments : List Argument} {o : Outcome} {m n : Meaning} (hm : o.BoundBy arguments m)
    (hn : o.BoundBy arguments n) : m = n := by
  obtain ⟨candidates, declarations⟩ := m
  obtain ⟨candidates', declarations'⟩ := n
  have hunique : Relator.RightUnique (Candidate.BoundBy arguments) := fun _ _ _ h h' => h.unique h'
  have hcandidates := List.right_unique_forall₂' hunique hm.candidates hn.candidates
  rw [Meaning.mk.injEq]
  exact ⟨hcandidates, hm.declarations.symm.trans hn.declarations⟩

/-! ## Steps on both sides -/

namespace Interpreter

theorem isEmpty_classify (payload : Text) : (Argument.classify payload).isEmpty = isBlankOnly payload := by
  rw [Argument.isEmpty, raw_classify]

theorem Agrees.mono {s : Interpreter} {p : Progress} (h : s.Agrees p) {arguments : List Argument}
    (hargs : s.arguments <+: arguments) : List.Forall₂ (Candidate.BoundBy arguments) s.candidates p.candidates :=
  h.candidates.imp fun _ _ hc => hc.mono hargs

theorem Agrees.outcome {s : Interpreter} {p : Progress} (h : s.Agrees p) : s.outcome.BoundBy s.arguments p.meaning :=
  ⟨h.candidates, h.declarations⟩

theorem Agrees.candidates_eq_nil {s : Interpreter} {p : Progress} (h : s.Agrees p) :
    s.candidates = [] ↔ p.candidates = [] := by
  rw [← List.length_eq_zero_iff, ← List.length_eq_zero_iff, h.candidates.length_eq]

theorem agrees_init (arguments : List Argument) : Agrees { arguments := arguments } {} :=
  ⟨.nil, rfl, rfl, rfl, rfl, rfl⟩

theorem Agrees.access {s : Interpreter} {p : Progress} (h : s.Agrees p) (hfin : s.finished = false) (name : Text) :
    ∃ s', s.access name = (s', none) ∧ s'.Agrees (p.access name) := by
  unfold Interpreter.access Progress.access
  rw [if_neg (by simp [hfin])]
  split_ifs
  · exact ⟨_, rfl, { h with finished := rfl }⟩
  · exact ⟨_, rfl, { h with responsive := rfl }⟩
  · exact ⟨_, rfl, { h with stylePending := rfl }⟩
  · exact ⟨_, rfl, { h with preloadPending := rfl }⟩
  · refine ⟨_, rfl, { h with candidates := ?_ }⟩
    exact List.rel_append h.candidates (.cons ⟨rfl, h.responsive, .always⟩ .nil)

theorem Agrees.addLiteral {s : Interpreter} {p : Progress} (h : s.Agrees p) (payload : Text) :
    (s.addLiteral (.classify payload)).Agrees (p.literal payload) := by
  refine { h with declarations := ?_, stylePending := rfl }
  unfold Interpreter.addLiteral Progress.literal
  rw [isEmpty_classify, raw_classify, h.declarations]

theorem gateLast_boundBy {arguments : List Argument} {index : Nat} {a : Argument} (ha : arguments[index]? = some a)
    {cs : List Candidate} {bs : List BoundCandidate} (h : List.Forall₂ (Candidate.BoundBy arguments) cs bs) :
    List.Forall₂ (Candidate.BoundBy arguments) (gateLast index cs) (Progress.gateLast a bs) := by
  induction h with
  | nil => exact .nil
  | @cons c b cs bs hc hrest ih =>
    cases hrest with
    | nil => exact .cons ⟨hc.key, hc.responsive, .argument ha⟩ .nil
    | cons hd hmore => exact .cons hc ih

theorem Agrees.gateBy {s : Interpreter} {p : Progress} (h : s.Agrees p) {index : Nat} {payload : Text}
    (ha : s.arguments[index]? = some (.classify payload)) :
    (s.gateBy index (.classify payload)).Agrees (p.gate payload) := by
  unfold Interpreter.gateBy Progress.gate
  rw [isEmpty_classify]
  split
  · exact h
  · exact { h with candidates := gateLast_boundBy ha h.candidates }

theorem Agrees.takeOver {s : Interpreter} {p : Progress} (h : s.Agrees p) {arguments : List Argument} {o : Outcome}
    {m : Meaning} (hargs : s.arguments <+: arguments) (ho : o.BoundBy arguments m) :
    (s.takeOver arguments o).Agrees (p.preload m) where
  candidates := List.rel_append (h.mono hargs) ho.candidates
  declarations := by
    change s.declarations ++ o.declarations = p.declarations ++ m.declarations
    rw [h.declarations, ho.declarations]
  responsive := h.responsive
  stylePending := h.stylePending
  preloadPending := rfl
  finished := h.finished

/-! ## Runs have a meaning -/

/-- a way of running preloaded chains whose successes on texts shorter than `bound` have a meaning -/
def SoundBelow (root : Text) (bound : Nat) (nested : Text → List Argument → Nested) : Prop :=
  ∀ t arguments arguments' o, t.length < bound → nested t arguments = (arguments', .ok o) →
    ∃ m, Means root t m ∧ o.BoundBy arguments' m

theorem stepWith_sound {root : Text} {bound : Nat} {nested : Text → List Argument → Nested} (hadds : OnlyAdds nested)
    (hnested : SoundBelow root bound nested) {s s' : Interpreter} {p : Progress} {link : Link} {source : SourceLink}
    (hs : s.Agrees p) (hlink : link.BoundBy s.arguments source) (hbound : ∀ x ∈ payloads [source], x.length < bound)
    (h : stepWith nested root s link = (s', none)) : ∃ q, Runs root p [source] q ∧ s'.Agrees q := by
  cases hlink with
  | access name =>
    have hfin : s.finished = false := by
      have haccess := access_accessed s name
      change s.access name = _ at h
      rw [h] at haccess
      generalize hfault : (none : Option Fault) = fault at haccess
      cases haccess with
      | afterFinish => cases hfault
      | finish hfin | responsive hfin | style hfin | preload hfin | candidate hfin => exact hfin
    obtain ⟨m, hm, hagrees⟩ := hs.access hfin name
    change s.access name = _ at h
    rw [hm] at h
    cases h
    exact ⟨_, .access (hs.finished ▸ hfin) .done, hagrees⟩
  | @call index payload ha =>
    have hcall := callWith_called nested root s index
    change callWith nested root s index = _ at h
    rw [h] at hcall
    have hlength : payload.length < bound := hbound payload List.mem_cons_self
    generalize hfault : (none : Option Fault) = fault at hcall
    cases hcall with
    | afterFinish | noArgument | preloadFailed | withoutName => cases hfault
    | literal hfin ha' hstyle =>
      obtain rfl := Option.some.inj (ha.symm.trans ha')
      exact ⟨_, .literal (hs.finished ▸ hfin) (hs.stylePending ▸ hstyle) .done, hs.addLiteral payload⟩
    | skipped hfin ha' hstyle hpreload hempty =>
      obtain rfl := Option.some.inj (ha.symm.trans ha')
      rw [isEmpty_classify] at hempty
      exact ⟨_, .skip (hs.finished ▸ hfin) (hs.stylePending ▸ hstyle) (hs.preloadPending ▸ hpreload) hempty .done,
        { hs with preloadPending := rfl }⟩
    | @preloaded a arguments o hfin ha' hstyle hpreload hempty hrun =>
      obtain rfl := Option.some.inj (ha.symm.trans ha')
      rw [isEmpty_classify] at hempty
      rw [raw_classify] at hrun
      obtain ⟨m, ⟨links, inner, hlinks, hinner, rfl⟩, ho⟩ := hnested payload _ _ _ hlength hrun
      have hprefix := hadds payload s.arguments
      rw [hrun] at hprefix
      exact ⟨_, .preload (hs.finished ▸ hfin) (hs.stylePending ▸ hstyle) (hs.preloadPending ▸ hpreload) hempty hlinks
        hinner .done, hs.takeOver hprefix ho⟩
    | gated hfin ha' hstyle hpreload hne =>
      obtain rfl := Option.some.inj (ha.symm.trans ha')
      exact ⟨_, .gate (hs.finished ▸ hfin) (hs.stylePending ▸ hstyle) (hs.preloadPending ▸ hpreload)
        (fun h => hne (hs.candidates_eq_nil.2 h)) .done, hs.gateBy ha⟩

theorem runWith_sound {root : Text} {bound : Nat} {nested : Text → List Argument → Nested} (hadds : OnlyAdds nested)
    (hnested : SoundBelow root bound nested) {s s' : Interpreter} {p : Progress} {links : List Link}
    {sources : List SourceLink} (hs : s.Agrees p) (hlinks : List.Forall₂ (Link.BoundBy s.arguments) links sources)
    (hbound : ∀ x ∈ payloads sources, x.length < bound) (h : runWith nested root s links = (s', none)) :
    ∃ q, Runs root p sources q ∧ s'.Agrees q := by
  induction sources generalizing s p links with
  | nil => cases hlinks; cases h; exact ⟨p, .done, hs⟩
  | cons source sources ih =>
    cases hlinks with
    | @cons link _ links _ hlink hrest =>
      obtain ⟨m, hstep, hrun⟩ := runWith_cons_eq_none.1 h
      rw [payloads_cons, List.forall_mem_append] at hbound
      obtain ⟨hfirst, hlater⟩ := hbound
      obtain ⟨q, hq, hagrees⟩ := stepWith_sound hadds hnested hs hlink hfirst hstep
      have hprefix := stepWith_arguments hadds root s link
      rw [hstep] at hprefix
      obtain ⟨r, hr, hagrees'⟩ := ih hagrees (hrest.imp fun _ _ hl => hl.mono hprefix) hlater hrun
      exact ⟨r, runs_append.2 ⟨q, hq, hr⟩, hagrees'⟩

/-- **A chain that runs has a meaning.** What it comes to is its meaning, with every gate at the index of the argument
of the call that set it. -/
theorem runText_sound (root : Text) (depth : Nat) : SoundBelow root depth (runText root depth) := by
  induction depth with
  | zero => intro t arguments arguments' o ht; exact absurd ht (Nat.not_lt_zero _)
  | succ depth ih =>
    intro t arguments arguments' o ht h
    rw [runText_succ] at h
    split at h
    · cases h
    · rename_i links hparse
      obtain ⟨sources, hsources, hbound⟩ := boundBy_of_parse hparse
      generalize hrun : runWith (runText root depth) root
        { arguments := arguments ++ (lift (Text.trim t) arguments.length).arguments } links = r at h
      rcases r with ⟨s, _ | fault⟩
      · cases h
        have hshort : ∀ x ∈ payloads sources, x.length < depth := fun x hx =>
          Nat.lt_of_lt_of_le (hsources.length_lt hx) (Nat.le_of_lt_succ ht)
        obtain ⟨p, hp, hagrees⟩ := runWith_sound (runText_arguments root depth) ih (agrees_init _) hbound hshort hrun
        exact ⟨_, ⟨sources, p, hsources, hp, rfl⟩, hagrees.outcome⟩
      · cases h

theorem preload_sound {root t : Text} {arguments arguments' : List Argument} {o : Outcome}
    (h : preload root t arguments = (arguments', .ok o)) : ∃ m, Means root t m ∧ o.BoundBy arguments' m :=
  runText_sound root (t.length + 1) t arguments arguments' o (Nat.lt_succ_self _) h

end Interpreter

/-! ## A text with a meaning runs -/

/-- the number of groups in a text, at any depth -/
def groups (t : Text) : Nat := t.count '('

/-- the number of groups inside the payloads of calls -/
def innerGroups : List SourceLink → Nat
  | [] => 0
  | .access _ :: rest => innerGroups rest
  | .call payload :: rest => groups payload + innerGroups rest

theorem groups_append (s t : Text) : groups (s ++ t) = groups s + groups t := List.count_append

/-- a row of links has a group for each call, and the groups inside their payloads -/
theorem Spells.groups_le {links : List SourceLink} {body : Text} (h : Spells links body) :
    (payloads links).length + innerGroups links ≤ groups body := by
  induction h with
  | nil => exact Nat.le_refl _
  | @cons gap t rest link links _ hlink _ ih =>
    rw [groups_append, groups_append]
    cases hlink with
    | access => exact Nat.le_trans ih (by omega)
    | @call payload _ =>
      have : groups payload < groups ('(' :: (payload ++ [')'])) := by
        simp [groups, List.count_append]
      simp only [innerGroups, payloads, List.length_cons]
      omega

theorem SpelledChain.groups_le {root t : Text} {links : List SourceLink} (h : SpelledChain root links t) :
    (payloads links).length + innerGroups links ≤ groups t := by
  obtain ⟨_, trail, rfl, _, lead, body, rfl, _, _, hbody⟩ := h
  have := hbody.groups_le
  simp only [groups_append]; omega

namespace Interpreter

/-- every state of the interpreter that agrees with `p` can be run along the links up to one that agrees with `q`, while
payloads are shorter than `depth` and indices stay below the limit -/
def RunsAlong (root : Text) (depth : Nat) (p : Progress) (sources : List SourceLink) (q : Progress) : Prop :=
  ∀ (s : Interpreter) (links : List Link), s.Agrees p → List.Forall₂ (Link.BoundBy s.arguments) links sources →
    (∀ x ∈ payloads sources, x.length < depth) → s.arguments.length + innerGroups sources ≤ Text.indexLimit →
    ∃ s', runWith (runText root depth) root s links = (s', none) ∧ s'.Agrees q ∧
      s'.arguments.length ≤ s.arguments.length + innerGroups sources

theorem innerGroups_cons (source : SourceLink) (rest : List SourceLink) :
    innerGroups (source :: rest) = innerGroups [source] + innerGroups rest := by
  cases source <;> simp [innerGroups]

/-- a first step that does not fail, and the rest -/
theorem RunsAlong.cons {root : Text} {depth : Nat} {p m q : Progress} {source : SourceLink} {rest : List SourceLink}
    (hstep : ∀ (s : Interpreter) (link : Link), s.Agrees p → link.BoundBy s.arguments source →
      (∀ x ∈ payloads [source], x.length < depth) → s.arguments.length + innerGroups [source] ≤ Text.indexLimit →
      ∃ s', stepWith (runText root depth) root s link = (s', none) ∧ s'.Agrees m ∧
        s'.arguments.length ≤ s.arguments.length + innerGroups [source])
    (hrest : RunsAlong root depth m rest q) : RunsAlong root depth p (source :: rest) q := by
  intro s links hs hlinks hdepth hlimit
  rw [innerGroups_cons] at hlimit ⊢
  rw [payloads_cons, List.forall_mem_append] at hdepth
  obtain ⟨hfirst, hlater⟩ := hdepth
  cases hlinks with
  | @cons link _ links _ hlink hmore =>
    obtain ⟨s', hs', hagrees, hsize⟩ := hstep s link hs hlink hfirst (by omega)
    have hprefix := stepWith_arguments (runText_arguments root depth) root s link
    rw [hs'] at hprefix
    obtain ⟨s'', hrun, hagrees', hsize'⟩ :=
      hrest s' links hagrees (hmore.imp fun _ _ hl => hl.mono hprefix) hlater (by omega)
    exact ⟨s'', runWith_cons_eq_none.2 ⟨s', hs', hrun⟩, hagrees', by omega⟩

/-- a text runs when its spelled links run from the start -/
theorem runText_of_runsAlong {root t : Text} {depth : Nat} {sources : List SourceLink} {q : Progress}
    (ht : SpelledChain root sources t) (hrun : RunsAlong root depth {} sources q) (hdepth : t.length ≤ depth)
    (arguments : List Argument) (hlimit : arguments.length + groups t ≤ Text.indexLimit) :
    ∃ arguments' o, runText root (depth + 1) t arguments = (arguments', .ok o) ∧ o.BoundBy arguments' q.meaning ∧
      arguments'.length ≤ arguments.length + groups t := by
  have hgroups := ht.groups_le
  have harguments := arguments_lift_chain ht.trim arguments.length
  have hparse := parse_of_spelled ht.trim arguments.length (by omega)
  have hbound := numbered_boundBy arguments [] sources
  rw [List.append_nil, ← harguments] at hbound
  have hlength : (arguments ++ (lift (Text.trim t) arguments.length).arguments).length =
      arguments.length + (payloads sources).length := by
    rw [List.length_append, harguments, List.length_map]
  obtain ⟨s, hs, hagrees, hsize⟩ := hrun { arguments := arguments ++ (lift (Text.trim t) arguments.length).arguments } _
    (agrees_init _) hbound (fun x hx => Nat.lt_of_lt_of_le (ht.length_lt hx) hdepth) (by simp only [hlength]; omega)
  simp only [hlength] at hsize
  refine ⟨s.arguments, s.outcome, ?_, hagrees.outcome, by omega⟩
  rw [runText_succ, hparse]
  simp only [hs]

/-- a run of written links is followed by the interpreter -/
theorem runsAlong_of_runs {root : Text} {p q : Progress} {sources : List SourceLink} (h : Runs root p sources q)
    (depth : Nat) : RunsAlong root depth p sources q := by
  induction h generalizing depth with
  | done =>
    intro s links hs hlinks _ _
    cases hlinks
    exact ⟨s, rfl, hs, Nat.le_add_right _ _⟩
  | @access p q name rest hfin _ ih =>
    refine .cons ?_ (ih depth)
    intro s link hs hlink _ _
    cases hlink with
    | access =>
      obtain ⟨m, hm, hagrees⟩ := hs.access (hs.finished ▸ hfin) name
      have harguments : m.arguments = s.arguments := by
        have := accessed_arguments (access_accessed s name)
        rwa [hm] at this
      refine ⟨m, hm, hagrees, ?_⟩
      rw [harguments]
      exact Nat.le_add_right _ _
  | @literal p q payload rest hfin hstyle _ ih =>
    refine .cons ?_ (ih depth)
    intro s link hs hlink _ _
    cases hlink with
    | @call index _ ha =>
      have hcall : Called (runText root depth) root s index (s.addLiteral (.classify payload)) none :=
        .literal (hs.finished ▸ hfin) ha (hs.stylePending ▸ hstyle)
      exact ⟨_, hcall.eq, hs.addLiteral payload, Nat.le_add_right _ _⟩
  | @skip p q payload rest hfin hstyle hpreload hblank _ ih =>
    refine .cons ?_ (ih depth)
    intro s link hs hlink _ _
    cases hlink with
    | @call index _ ha =>
      have hempty : (Argument.classify payload).isEmpty = true := by rwa [isEmpty_classify]
      have hcall : Called (runText root depth) root s index { s with preloadPending := false } none :=
        .skipped (hs.finished ▸ hfin) ha (hs.stylePending ▸ hstyle) (hs.preloadPending ▸ hpreload) hempty
      exact ⟨_, hcall.eq, { hs with preloadPending := rfl }, Nat.le_add_right _ _⟩
  | @preload p q inner payload links rest hfin hstyle hpreload hblank hspelled _ _ ihInner ih =>
    refine .cons ?_ (ih depth)
    intro s link hs hlink hdepth hlimit
    cases hlink with
    | @call index _ ha =>
      have hshort : payload.length < depth := hdepth payload List.mem_cons_self
      -- a payload is shorter than the depth, so that there is some depth left to run it at
      obtain ⟨depth, rfl⟩ : ∃ d, depth = d + 1 := Nat.exists_eq_succ_of_ne_zero (by omega)
      have hgroups : innerGroups [.call payload] = groups payload := rfl
      rw [hgroups] at hlimit ⊢
      obtain ⟨arguments, o, hrun, hbound, hsize⟩ :=
        runText_of_runsAlong hspelled (ihInner depth) (by omega) s.arguments hlimit
      have hprefix := runText_arguments root (depth + 1) payload s.arguments
      rw [hrun] at hprefix
      have hempty : (Argument.classify payload).isEmpty = false := by rwa [isEmpty_classify]
      have hcall : Called (runText root (depth + 1)) root s index (s.takeOver arguments o) none :=
        .preloaded (hs.finished ▸ hfin) ha (hs.stylePending ▸ hstyle) (hs.preloadPending ▸ hpreload) hempty
          (by rwa [raw_classify])
      exact ⟨_, hcall.eq, hs.takeOver hprefix hbound, hsize⟩
  | @gate p q payload rest hfin hstyle hpreload hne _ ih =>
    refine .cons ?_ (ih depth)
    intro s link hs hlink _ _
    cases hlink with
    | @call index _ ha =>
      have hsome : s.candidates ≠ [] := fun h => hne (hs.candidates_eq_nil.1 h)
      have hcall : Called (runText root depth) root s index (s.gateBy index (.classify payload)) none :=
        .gated (hs.finished ▸ hfin) ha (hs.stylePending ▸ hstyle) (hs.preloadPending ▸ hpreload) hsome
      refine ⟨_, hcall.eq, hs.gateBy ha, ?_⟩
      unfold gateBy
      split <;> exact Nat.le_add_right _ _

/-- **A chain runs exactly when it has a meaning**, and comes to it, if its length is below the limit of indices. -/
theorem preload_means_iff {root t : Text} (hlimit : t.length ≤ Text.indexLimit) (m : Meaning) :
    Means root t m ↔ ∃ arguments o, preload root t [] = (arguments, .ok o) ∧ o.BoundBy arguments m := by
  constructor
  · intro h
    obtain ⟨sources, p, hsources, hp, rfl⟩ := h
    have hgroups : groups t ≤ t.length := List.count_le_length
    obtain ⟨arguments, o, hrun, hbound, _⟩ :=
      runText_of_runsAlong hsources (runsAlong_of_runs hp t.length) (Nat.le_refl _) []
        (by rw [List.length_nil]; omega)
    exact ⟨arguments, o, hrun, hbound⟩
  · intro h
    obtain ⟨arguments, o, hrun, hbound⟩ := h
    obtain ⟨n, hn, hbound'⟩ := preload_sound hrun
    rwa [hbound.unique hbound']

end Interpreter

end TerseStyle.Chain

/-
What one step of a running chain can do, said once. `Called` lists every way in which a call ends, faults included, with
the conditions that lead there; `Accessed` does so for a name. What a whole run preserves is proved from these cases,
for any way of running preloaded chains, and then for the way in which they are run.

Results:
- `callWith_called`, `access_accessed`: the cases are complete.
- `runText_arguments`: arguments are only added, behind those already there, whether the chain runs or fails.
- `runText_ne_noArgument`: no chain that was read from a text calls an argument that does not exist.
-/
import TerseStyle.Chain.Interpreter
import TerseStyle.Proofs.Chain.FrontEnd

namespace TerseStyle.Chain

namespace Interpreter

/-! ## The cases of a step -/

/-- the state behind a call that `$style` waited for -/
def addLiteral (s : Interpreter) (a : Argument) : Interpreter :=
  { s with
      stylePending := false
      declarations := if a.isEmpty then s.declarations else s.declarations ++ [.spread a.raw] }

/-- the state behind a call that gates the last candidate -/
def gateBy (s : Interpreter) (index : Nat) (a : Argument) : Interpreter :=
  if a.isEmpty then s else { s with candidates := gateLast index s.candidates }

/-- the state behind a preloaded chain -/
def takeOver (s : Interpreter) (arguments : List Argument) (o : Outcome) : Interpreter :=
  { s with
      arguments := arguments
      preloadPending := false
      candidates := s.candidates ++ o.candidates
      declarations := s.declarations ++ o.declarations }

/-- the ways in which a name ends -/
inductive Accessed (s : Interpreter) (name : Text) : Interpreter → Option Fault → Prop
  | afterFinish : s.finished = true → Accessed s name s (some (.nameAfterFinish name))
  | finish : s.finished = false → name = finishName → Accessed s name { s with finished := true } none
  | responsive : s.finished = false → name = responsiveName → Accessed s name { s with responsive := true } none
  | style : s.finished = false → name = styleName → Accessed s name { s with stylePending := true } none
  | preload : s.finished = false → name = preloadName → Accessed s name { s with preloadPending := true } none
  | candidate : s.finished = false → name ≠ finishName → name ≠ responsiveName → name ≠ styleName →
      name ≠ preloadName →
      Accessed s name { s with candidates := s.candidates ++ [⟨keyOf name, s.responsive, .always⟩] } none

/-- the ways in which a call ends -/
inductive Called (nested : Text → List Argument → Nested) (root : Text) (s : Interpreter) (index : Nat) :
    Interpreter → Option Fault → Prop
  | afterFinish : s.finished = true → Called nested root s index s (some .callAfterFinish)
  | noArgument : s.finished = false → s.arguments[index]? = none →
      Called nested root s index s (some (.noArgument index))
  | literal {a : Argument} : s.finished = false → s.arguments[index]? = some a → s.stylePending = true →
      Called nested root s index (s.addLiteral a) none
  | skipped {a : Argument} : s.finished = false → s.arguments[index]? = some a → s.stylePending = false →
      s.preloadPending = true → a.isEmpty = true → Called nested root s index { s with preloadPending := false } none
  | preloaded {a : Argument} {arguments : List Argument} {o : Outcome} : s.finished = false →
      s.arguments[index]? = some a → s.stylePending = false → s.preloadPending = true → a.isEmpty = false →
      nested a.raw s.arguments = (arguments, .ok o) → Called nested root s index (s.takeOver arguments o) none
  | preloadFailed {a : Argument} {arguments : List Argument} {fault : Fault} : s.finished = false →
      s.arguments[index]? = some a → s.stylePending = false → s.preloadPending = true → a.isEmpty = false →
      nested a.raw s.arguments = (arguments, .error fault) →
      Called nested root s index { s with preloadPending := false, arguments := arguments } (some fault)
  | withoutName {a : Argument} : s.finished = false → s.arguments[index]? = some a → s.stylePending = false →
      s.preloadPending = false → s.candidates = [] → Called nested root s index s (some (.callWithoutName root))
  | gated {a : Argument} : s.finished = false → s.arguments[index]? = some a → s.stylePending = false →
      s.preloadPending = false → s.candidates ≠ [] → Called nested root s index (s.gateBy index a) none

theorem access_accessed (s : Interpreter) (name : Text) : Accessed s name (s.access name).1 (s.access name).2 := by
  unfold access
  split
  · rename_i hfin; exact .afterFinish hfin
  · rename_i hfin
    have hfin : s.finished = false := by simpa using hfin
    split_ifs with h1 h2 h3 h4
    · exact .finish hfin h1
    · exact .responsive hfin h2
    · exact .style hfin h3
    · exact .preload hfin h4
    · exact .candidate hfin h1 h2 h3 h4

theorem callWith_called (nested : Text → List Argument → Nested) (root : Text) (s : Interpreter) (index : Nat) :
    Called nested root s index (callWith nested root s index).1 (callWith nested root s index).2 := by
  unfold callWith
  split
  · rename_i hfin; exact .afterFinish hfin
  · rename_i hfin
    have hfin : s.finished = false := by simpa using hfin
    split
    · rename_i hnone; exact .noArgument hfin hnone
    · rename_i a ha
      by_cases hstyle : s.stylePending = true
      · rw [if_pos hstyle]
        have : Called nested root s index (s.addLiteral a) none := .literal hfin ha hstyle
        unfold addLiteral at this
        split <;> simp_all
      have hstyle : s.stylePending = false := by simpa using hstyle
      rw [if_neg (by simp [hstyle])]
      by_cases hpreload : s.preloadPending = true
      · rw [if_pos hpreload]
        by_cases hempty : a.isEmpty = true
        · simp only [hempty, if_true]
          exact .skipped hfin ha hstyle hpreload hempty
        · have hempty : a.isEmpty = false := by simpa using hempty
          simp only [hempty, Bool.false_eq_true, if_false]
          split
          · rename_i hnested; exact .preloadFailed hfin ha hstyle hpreload hempty hnested
          · rename_i hnested; exact .preloaded hfin ha hstyle hpreload hempty hnested
      have hpreload : s.preloadPending = false := by simpa using hpreload
      rw [if_neg (by simp [hpreload])]
      by_cases hnone : s.candidates = []
      · rw [if_pos (by simp [hnone])]
        exact .withoutName hfin ha hstyle hpreload hnone
      · rw [if_neg (by simpa using hnone)]
        have : Called nested root s index (s.gateBy index a) none := .gated hfin ha hstyle hpreload hnone
        unfold gateBy at this
        split <;> simp_all

/-- the conditions of a case decide the call -/
theorem Called.eq {nested : Text → List Argument → Nested} {root : Text} {s s' : Interpreter} {index : Nat}
    {fault : Option Fault} (h : Called nested root s index s' fault) : callWith nested root s index = (s', fault) := by
  unfold callWith
  cases h with
  | afterFinish hfin => rw [if_pos hfin]
  | noArgument hfin hnone => rw [if_neg (by simp [hfin]), hnone]
  | literal hfin ha hstyle =>
    rw [if_neg (by simp [hfin]), ha]
    simp only [hstyle, if_true, addLiteral]
    split <;> rfl
  | skipped hfin ha hstyle hpreload hempty =>
    rw [if_neg (by simp [hfin]), ha]
    simp only [hstyle, hpreload, hempty, if_true, Bool.false_eq_true, if_false]
  | preloaded hfin ha hstyle hpreload hempty hrun =>
    rw [if_neg (by simp [hfin]), ha]
    simp only [hstyle, hpreload, hempty, if_true, Bool.false_eq_true, if_false, hrun, takeOver]
  | preloadFailed hfin ha hstyle hpreload hempty hrun =>
    rw [if_neg (by simp [hfin]), ha]
    simp only [hstyle, hpreload, hempty, if_true, Bool.false_eq_true, if_false, hrun]
  | withoutName hfin ha hstyle hpreload hnone =>
    rw [if_neg (by simp [hfin]), ha]
    simp only [hstyle, hpreload, hnone, List.isEmpty_nil, if_true, Bool.false_eq_true, if_false]
  | gated hfin ha hstyle hpreload hne =>
    rw [if_neg (by simp [hfin]), ha]
    simp only [hstyle, hpreload, Bool.false_eq_true, if_false, List.isEmpty_iff, hne, gateBy]
    split <;> rfl

/-- a run is a first step and, if that did not fail, the rest of it -/
theorem runWith_cons (nested : Text → List Argument → Nested) (root : Text) (s : Interpreter) (link : Link)
    (rest : List Link) :
    runWith nested root s (link :: rest) =
      match (stepWith nested root s link).2 with
      | none => runWith nested root (stepWith nested root s link).1 rest
      | some fault => ((stepWith nested root s link).1, some fault) := by
  rw [runWith]
  rcases stepWith nested root s link with ⟨s', _ | fault⟩ <;> rfl

/-- a run that does not fail is a step that does not fail and a run that does not fail -/
theorem runWith_cons_eq_none {nested : Text → List Argument → Nested} {root : Text} {s s' : Interpreter} {link : Link}
    {rest : List Link} :
    runWith nested root s (link :: rest) = (s', none) ↔
      ∃ m, stepWith nested root s link = (m, none) ∧ runWith nested root m rest = (s', none) := by
  rw [runWith]
  rcases stepWith nested root s link with ⟨m, _ | fault⟩ <;> simp

/-! ## Arguments are only added -/

/-- a way of running preloaded chains that only adds arguments -/
def OnlyAdds (nested : Text → List Argument → Nested) : Prop := ∀ t arguments, arguments <+: (nested t arguments).1

theorem accessed_arguments {s s' : Interpreter} {name : Text} {fault : Option Fault} (h : Accessed s name s' fault) :
    s'.arguments = s.arguments := by
  cases h <;> rfl

theorem called_arguments {nested : Text → List Argument → Nested} (hnested : OnlyAdds nested) {root : Text}
    {s s' : Interpreter} {index : Nat} {fault : Option Fault} (h : Called nested root s index s' fault) :
    s.arguments <+: s'.arguments := by
  cases h with
  | afterFinish | noArgument | literal | skipped | withoutName => exact List.prefix_rfl
  | @preloaded a _ _ _ _ _ _ _ hrun =>
    have := hnested a.raw s.arguments
    rw [hrun] at this; exact this
  | @preloadFailed a _ _ _ _ _ _ _ hrun =>
    have := hnested a.raw s.arguments
    rw [hrun] at this; exact this
  | gated => unfold gateBy; split <;> exact List.prefix_rfl

theorem stepWith_arguments {nested : Text → List Argument → Nested} (hnested : OnlyAdds nested) (root : Text)
    (s : Interpreter) (link : Link) : s.arguments <+: (stepWith nested root s link).1.arguments := by
  cases link with
  | access name =>
    have heq : (s.access name).1.arguments = s.arguments := accessed_arguments (access_accessed s name)
    exact ⟨[], by rw [List.append_nil]; exact heq.symm⟩
  | call index => exact called_arguments hnested (callWith_called nested root s index)

theorem runWith_arguments {nested : Text → List Argument → Nested} (hnested : OnlyAdds nested) (root : Text)
    (s : Interpreter) (links : List Link) : s.arguments <+: (runWith nested root s links).1.arguments := by
  induction links generalizing s with
  | nil => exact List.prefix_rfl
  | cons link rest ih =>
    have hstep := stepWith_arguments hnested root s link
    rw [runWith_cons]
    split
    · exact hstep.trans (ih _)
    · exact hstep

/-- what a chain read from a text does: nothing but adding its arguments if it cannot be read, else a run of its links
on the arguments then -/
theorem runText_succ (root : Text) (depth : Nat) (t : Text) (arguments : List Argument) :
    runText root (depth + 1) t arguments =
      match parse (lift (Text.trim t) arguments.length).skeleton root with
      | .error fault => (arguments ++ (lift (Text.trim t) arguments.length).arguments, .error fault)
      | .ok links =>
        let r := runWith (runText root depth) root
          { arguments := arguments ++ (lift (Text.trim t) arguments.length).arguments } links
        (r.1.arguments, match r.2 with | some fault => .error fault | none => .ok r.1.outcome) := by
  rw [runText]
  cases parse (lift (Text.trim t) arguments.length).skeleton root with
  | error fault => rfl
  | ok links =>
    simp only
    split <;> simp_all

/-- **Arguments are only added**, whether a chain runs or fails. -/
theorem runText_arguments (root : Text) (depth : Nat) : OnlyAdds (runText root depth) := by
  induction depth with
  | zero => intro t arguments; exact List.prefix_rfl
  | succ depth ih =>
    intro t arguments
    have hlift := List.prefix_append arguments (lift (Text.trim t) arguments.length).arguments
    rw [runText_succ]
    split
    · exact hlift
    · exact hlift.trans (runWith_arguments ih root { arguments := arguments ++ _ } _)

theorem preload_onlyAdds (root : Text) : OnlyAdds (preload root) :=
  fun t arguments => runText_arguments root (t.length + 1) t arguments

/-! ## Calls are on arguments that exist -/

/-- the calls among links are on arguments below `n` -/
def CallsBelow (n : Nat) (links : List Link) : Prop := ∀ index, .call index ∈ links → index < n

theorem callsBelow_numbered (next : Nat) (sources : List SourceLink) :
    CallsBelow (next + (payloads sources).length) (numbered next sources) := by
  induction sources generalizing next with
  | nil => intro index h; cases h
  | cons source sources ih =>
    intro index h
    cases source with
    | access name =>
      rcases List.mem_cons.1 h with h | h
      · cases h
      · exact ih next index h
    | call payload =>
      rw [payloads, List.length_cons]
      rcases List.mem_cons.1 h with h | h
      · cases h; omega
      · have := ih (next + 1) index h; omega

/-- the links of a chain that is read call arguments that were lifted out of its own text -/
theorem callsBelow_of_parse {root t : Text} {offset : Nat} {links : List Link}
    (h : parse (lift t offset).skeleton root = .ok links) :
    CallsBelow (offset + (lift t offset).arguments.length) links := by
  obtain ⟨sources, hsources, rfl⟩ := spelled_of_parse h
  rw [arguments_lift_chain hsources, List.length_map]
  exact callsBelow_numbered offset sources

theorem runWith_ne_noArgument {nested : Text → List Argument → Nested} (hadds : OnlyAdds nested)
    (hnested : ∀ t arguments index, (nested t arguments).2 ≠ .error (.noArgument index)) (root : Text) (s : Interpreter)
    (links : List Link) (hlinks : CallsBelow s.arguments.length links) (index : Nat) :
    (runWith nested root s links).2 ≠ some (.noArgument index) := by
  induction links generalizing s with
  | nil => simp [runWith]
  | cons link rest ih =>
    rw [runWith_cons]
    split
    · apply ih
      intro i hi
      exact Nat.lt_of_lt_of_le (hlinks i (List.mem_cons_of_mem _ hi)) (stepWith_arguments hadds root s link).length_le
    · rename_i fault hfault
      intro h
      cases h
      cases link with
      | access name =>
        have haccess := access_accessed s name
        change (s.access name).2 = _ at hfault
        rw [hfault] at haccess
        generalize (s.access name).1 = m at haccess
        cases haccess
      | call i =>
        have hcall := callWith_called nested root s i
        change (callWith nested root s i).2 = _ at hfault
        rw [hfault] at hcall
        generalize (callWith nested root s i).1 = m at hcall
        cases hcall with
        | noArgument _ hnone =>
          have := List.getElem?_eq_none_iff.1 hnone
          have := hlinks _ List.mem_cons_self
          omega
        | preloadFailed _ _ _ _ _ hrun => exact hnested _ s.arguments index (by rw [hrun])

/-- **No chain read from a text calls an argument that does not exist**, at any depth of preloading. -/
theorem runText_ne_noArgument (root : Text) (depth : Nat) (t : Text) (arguments : List Argument) (index : Nat) :
    (runText root depth t arguments).2 ≠ .error (.noArgument index) := by
  induction depth generalizing t arguments index with
  | zero => simp [runText]
  | succ depth ih =>
    rw [runText_succ]
    split
    · rename_i fault hparse
      intro h
      cases h
      exact parse_ne_noArgument _ _ _ hparse
    · rename_i links hparse
      have hbelow := callsBelow_of_parse hparse
      have hrun := runWith_ne_noArgument (runText_arguments root depth) ih root
        { arguments := arguments ++ (lift (Text.trim t) arguments.length).arguments } links
        (by rw [List.length_append]; exact hbelow) index
      simp only
      split
      · rename_i fault hfault
        intro h
        cases h
        exact hrun hfault
      · simp

end Interpreter

end TerseStyle.Chain

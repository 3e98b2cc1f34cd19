/-
Operations that fail. Some fail before anything is changed; a call that a preloaded chain was waited for fails after that
has been cleared and the nested chain has added its arguments. Here all of them are contained: candidates, styles and the
other modes are those before the operation. `Origin` follows a fault from the operation that it comes out of down to the one
that raised it, through the preloaded chains in between; what the chains on this way had come to by then is lost.

Results:
- `step_fails`: the two ways in which an operation fails, and the state that each leaves.
- `run_fails`: a run that fails has come to what the links in front of the failing one come to.
- `step_fails_iff`: a fault raised at any depth comes out of the outermost operation, and no other fault does.
- `step_contained`: all of this for any state, operation and fault.
-/
import TerseStyle.Proofs.Chain.Execution
import TerseStyle.Proofs.Chain.Reachable

namespace TerseStyle.Chain

namespace Interpreter

/-! ## What is contained -/

/-- only arguments may have been added at the end, and a preloaded chain may no longer be waited for -/
structure Contained (s s' : Interpreter) : Prop where
  candidates : s'.candidates = s.candidates
  declarations : s'.declarations = s.declarations
  responsive : s'.responsive = s.responsive
  stylePending : s'.stylePending = s.stylePending
  finished : s'.finished = s.finished
  preloadPending : s'.preloadPending = true → s.preloadPending = true
  arguments : s.arguments <+: s'.arguments

theorem Contained.refl (s : Interpreter) : Contained s s := ⟨rfl, rfl, rfl, rfl, rfl, id, List.prefix_rfl⟩

/-- the state behind a preloaded chain that has failed -/
def withoutPreload (s : Interpreter) (more : List Argument) : Interpreter :=
  { s with preloadPending := false, arguments := s.arguments ++ more }

theorem contained_withoutPreload (s : Interpreter) (more : List Argument) : Contained s (s.withoutPreload more) :=
  ⟨rfl, rfl, rfl, rfl, rfl, nofun, List.prefix_append _ _⟩

/-! ## One operation -/

variable {root : Text} {s s' m : Interpreter} {link : Link} {a : Argument} {fault : Fault}

/-- an operation that preloads nothing fails before it changes anything -/
theorem step_fails_plain (h : step root s link = (s', some fault)) (hplain : s.preloaded? link = none) : s' = s := by
  cases link with
  | access name =>
    have haccess := access_accessed s name
    change s.access name = _ at h
    rw [h] at haccess
    generalize hr : some fault = r at haccess
    cases haccess with
    | afterFinish => rfl
    | finish | responsive | style | preload | candidate => cases hr
  | call index =>
    have hcall := callWith_called (preload root) root s index
    change callWith (preload root) root s index = _ at h
    rw [h] at hcall
    generalize hr : some fault = r at hcall
    cases hcall with
    | afterFinish | noArgument | withoutName => rfl
    | literal | skipped | preloaded | gated => cases hr
    | preloadFailed hfin ha hstyle hpreload hfull =>
      have := preloaded?_eq_some.2 ⟨index, rfl, hfin, hstyle, hpreload, ha, hfull⟩
      rw [hplain] at this
      cases this

/-- **The two ways in which an operation fails**: before it changes anything, or in a chain that it preloads, whose
arguments then stay. -/
theorem step_fails (h : step root s link = (s', some fault)) :
    (s.preloaded? link = none ∧ s' = s) ∨ ∃ a more, s.preloaded? link = some a ∧
      preload root a.raw s.arguments = (s.arguments ++ more, .error fault) ∧ s' = s.withoutPreload more := by
  cases hpreloaded : s.preloaded? link with
  | none => exact Or.inl ⟨rfl, step_fails_plain h hpreloaded⟩
  | some a =>
    obtain ⟨more, hmore⟩ := preload_onlyAdds root a.raw s.arguments
    rw [step, stepWith_of_preloaded hpreloaded] at h
    rcases hrun : preload root a.raw s.arguments with ⟨arguments, fault' | o⟩
    · rw [hrun] at h hmore
      cases h
      obtain rfl : s.arguments ++ more = arguments := hmore
      exact Or.inr ⟨a, more, rfl, hrun, rfl⟩
    · rw [hrun] at h
      cases h

/-! ## Where a fault comes from -/

/-- the fault is raised by this operation, or inside of the chain that it preloads, behind links that did not fail -/
inductive Origin (root : Text) : Interpreter → Link → Fault → Prop
  | own {s : Interpreter} {link : Link} {fault : Fault} : s.preloaded? link = none →
      step root s link = (s, some fault) → Origin root s link fault
  /-- the preloaded text is no chain -/
  | unread {s : Interpreter} {link : Link} {a : Argument} {fault : Fault} : s.preloaded? link = some a →
      nestedLinks root a.raw s.arguments = .error fault → Origin root s link fault
  | inside {s m : Interpreter} {link inner : Link} {a : Argument} {front behind : List Link} {fault : Fault} :
      s.preloaded? link = some a → nestedLinks root a.raw s.arguments = .ok (front ++ inner :: behind) →
      run root (nestedStart a.raw s.arguments) front = (m, none) → Origin root m inner fault → Origin root s link fault

/-- links behind others go on from where those have led to -/
theorem run_append_of_none {front : List Link} (h : run root s front = (m, none)) (rest : List Link) :
    run root s (front ++ rest) = run root m rest := by
  induction front generalizing s with
  | nil =>
    cases h
    rfl
  | cons link front ih =>
    obtain ⟨n, hstep, hrun⟩ := runWith_cons_eq_none.1 h
    rw [List.cons_append, run_cons, step, hstep]
    exact ih hrun

theorem run_append_of_fails {front : List Link} (h : run root s front = (m, none))
    (hstep : step root m link = (s', some fault)) (behind : List Link) :
    run root s (front ++ link :: behind) = (s', some fault) := by
  rw [run_append_of_none h, run_cons, hstep]

/-- an execution that fails has an operation whose fault it is, behind links that did not fail -/
theorem Executes.origin {depth : Nat} {links : List Link} {r : Interpreter × Option Fault}
    (h : Executes root depth s links r) (hr : r.2 = some fault) :
    ∃ front link behind m, links = front ++ link :: behind ∧ run root s front = (m, none) ∧
      step root m link = (r.1, some fault) ∧ Origin root m link fault := by
  -- the links behind a first one that has not failed
  have later {s m : Interpreter} {link : Link} {rest : List Link} {r : Interpreter × Option Fault}
      (hstep : step root s link = (m, none))
      (ih : ∃ front link behind n, rest = front ++ link :: behind ∧ run root m front = (n, none) ∧
        step root n link = (r.1, some fault) ∧ Origin root n link fault) :
      ∃ front link' behind n, link :: rest = front ++ link' :: behind ∧ run root s front = (n, none) ∧
        step root n link' = (r.1, some fault) ∧ Origin root n link' fault := by
    obtain ⟨front, link', behind, n, rfl, hrun, hfails, horigin⟩ := ih
    refine ⟨link :: front, link', behind, n, rfl, ?_, hfails, horigin⟩
    rw [run_cons, hstep]
    exact hrun
  induction h with
  | done => cases hr
  | plain hstep _ ih => exact later (hstep _) (ih hr)
  | @fails s s' link rest fault' hstep =>
    obtain rfl : fault' = fault := Option.some.inj hr
    -- an operation that preloads a chain does not fail whatever the chain comes to
    have hplain : s.preloaded? link = none := by
      rw [Option.eq_none_iff_forall_not_mem]
      intro a ha
      have hnever := hstep fun _ arguments => (arguments, .ok ⟨[], []⟩)
      rw [stepWith_of_preloaded ha] at hnever
      cases hnever
    obtain rfl := step_fails_plain (hstep _) hplain
    exact ⟨[], link, rest, s', rfl, rfl, hstep _, .own hplain (hstep _)⟩
  | @unread s link a rest fault' hpreloaded hlinks =>
    obtain rfl : fault' = fault := Option.some.inj hr
    refine ⟨[], link, rest, s, rfl, rfl, ?_, .unread hpreloaded hlinks⟩
    rw [step_of_preloaded root hpreloaded, hlinks]
    rfl
  | @preloadFails depth s inner link a links rest fault' hpreloaded hlinks hinner ih =>
    obtain rfl : fault' = fault := Option.some.inj hr
    obtain ⟨front, link', behind, n, rfl, hrun, _, horigin⟩ := ih rfl
    refine ⟨[], link, rest, s, rfl, rfl, ?_, .inside hpreloaded hlinks hrun horigin⟩
    rw [step_of_preloaded root hpreloaded, hlinks]
    simp only [← hinner.eq_run]
    rfl
  | @preload depth depth' s inner link a links rest r hpreloaded hlinks hinner _ _ ih =>
    apply later _ (ih hr)
    rw [step_of_preloaded root hpreloaded, hlinks]
    simp only [← hinner.eq_run]
    rfl

/-- **A run that fails stops at the failing operation**: it has come to what the links in front of it come to. -/
theorem run_fails {links : List Link} (h : run root s links = (s', some fault)) :
    ∃ front link behind m, links = front ++ link :: behind ∧ run root s front = (m, none) ∧
      step root m link = (s', some fault) ∧ Origin root m link fault := by
  obtain ⟨depth, hexecutes⟩ := executes_run root s links
  rw [h] at hexecutes
  exact hexecutes.origin rfl

/-- a fault comes out of every preloaded chain on its way, and out of the outermost operation -/
theorem Origin.fails (h : Origin root s link fault) : (step root s link).2 = some fault := by
  induction h with
  | own _ hstep => rw [hstep]
  | unread hpreloaded hlinks =>
    rw [step_of_preloaded root hpreloaded, hlinks]
    rfl
  | @inside s m link inner a front behind fault hpreloaded hlinks hrun _ ih =>
    have hinner : step root m inner = ((step root m inner).1, some fault) := Prod.ext rfl ih
    rw [step_of_preloaded root hpreloaded, hlinks]
    simp only [run_append_of_fails hrun hinner behind]
    rfl

/-- **Faults come out as they are raised**: an operation fails exactly when a fault is raised by it or, at any depth, in
the chain that it preloads, and with that fault. -/
theorem step_fails_iff : (step root s link).2 = some fault ↔ Origin root s link fault := by
  constructor
  · intro h
    have hstep : step root s link = ((step root s link).1, some fault) := Prod.ext rfl h
    have hrun : run root s [link] = ((step root s link).1, some fault) := by rw [run_cons, hstep]
    obtain ⟨front, link', behind, m, hsplit, hfront, _, horigin⟩ := run_fails hrun
    cases front with
    | nil =>
      cases hsplit
      cases hfront
      exact horigin
    | cons first front =>
      have hlength := congrArg List.length hsplit
      simp at hlength
  · exact Origin.fails

/-! ## Containment -/

theorem step_contains (h : (step root s link).2 = some fault) : Contained s (step root s link).1 := by
  have hstep : step root s link = ((step root s link).1, some fault) := Prod.ext rfl h
  rcases step_fails hstep with ⟨_, hs⟩ | ⟨a, more, _, _, hs⟩
  · rw [hs]
    exact .refl s
  · rw [hs]
    exact contained_withoutPreload s more

/-- **Operations that fail are contained.** In any state, an operation fails exactly when a fault is raised by it or, at any
depth, in the chain that it preloads. Then the candidates, the styles and the modes are those before it, with nothing of a
chain that had run halfway. Only a call on an argument with content, for which a preloaded chain was waited for and no
literal style, changes anything: the chain is no longer waited for, and arguments are added at the end. -/
theorem step_contained (root : Text) (s : Interpreter) (link : Link) (fault : Fault) :
    ((step root s link).2 = some fault ↔ Origin root s link fault) ∧
      ((step root s link).2 = some fault → Contained s (step root s link).1 ∧
        ((step root s link).1 = s ∨ ∃ index a more, link = .call index ∧ s.finished = false ∧ s.stylePending = false ∧
          s.preloadPending = true ∧ s.arguments[index]? = some a ∧ a.isEmpty = false ∧
          preload root a.raw s.arguments = (s.arguments ++ more, .error fault) ∧
          (step root s link).1 = s.withoutPreload more)) := by
  refine ⟨step_fails_iff, fun h => ⟨step_contains h, ?_⟩⟩
  have hstep : step root s link = ((step root s link).1, some fault) := Prod.ext rfl h
  rcases step_fails hstep with ⟨_, hs⟩ | ⟨a, more, hpreloaded, hrun, hs⟩
  · exact Or.inl hs
  · obtain ⟨index, rfl, hfin, hstyle, hpreload, ha, hfull⟩ := preloaded?_eq_some.1 hpreloaded
    exact Or.inr ⟨index, a, more, rfl, hfin, hstyle, hpreload, ha, hfull, hrun, hs⟩

/-- a state in which a chain is waited for; the one in its argument preloads a text that is none -/
def awaiting : Interpreter :=
  drive "SS".toList { arguments := [.classify "SS.a.preload(x!)".toList] } [.access "bold".toList, .access preloadName]

/-- the fault is raised two chains deep, when the outer one has come to a candidate of its own -/
theorem step_contained_nested :
    Origin "SS".toList awaiting (.call 0) (.wrongRoot "SS".toList "x".toList "x!".toList) ∧
      (step "SS".toList awaiting (.call 0)).1.candidates = [⟨"bold".toList, false, .always⟩] ∧
      (step "SS".toList awaiting (.call 0)).1.preloadPending = false ∧
      (step "SS".toList awaiting (.call 0)).1.arguments.length = 2 := by
  obtain ⟨horigin, hcontained⟩ :=
    step_contained "SS".toList awaiting (.call 0) (.wrongRoot "SS".toList "x".toList "x!".toList)
  obtain ⟨hsame, _⟩ := hcontained rfl
  exact ⟨horigin.1 rfl, hsame.candidates, rfl, rfl⟩

end Interpreter

end TerseStyle.Chain

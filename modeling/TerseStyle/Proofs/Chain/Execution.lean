/-
Executions of a chain, with nothing that bounds how deep preloaded chains are nested. `Executes` follows the operations
one by one, and a preloaded chain by an execution of its own: an execution is a finite tree, so that where there is one
the chain comes to an end. The interpreter runs preloaded chains at a depth taken from the length of their text; here this
depth is shown never to be used up, because a preloaded chain calls only the arguments that were lifted out of its own text,
and each of them is shorter than the text.

Results:
- `calls_fresh`: the calls of a preloaded chain are on arguments that it added itself, all shorter than its text.
- `preload_eq`: running a preloaded chain satisfies the recursion without any depth.
- `executes_run`, `Executes.eq_run`: every run is an execution, and the only one from its state.
- `Executes.depth_le`: the nesting is no deeper than the longest preloaded argument is long.
- `run_terminates`: all of this for any arguments and any operations.
-/
import TerseStyle.Proofs.Chain.Binding

namespace TerseStyle.Chain

/-! ## Calls of a preloaded chain -/

/-- the calls of numbered links are on the payloads that they were numbered from -/
theorem call_mem_numbered {next index : Nat} {sources : List SourceLink} (h : .call index ∈ numbered next sources) :
    ∃ k p, index = next + k ∧ (payloads sources)[k]? = some p := by
  induction sources generalizing next with
  | nil => cases h
  | cons source sources ih =>
    cases source with
    | access name =>
      rcases List.mem_cons.1 h with h | h
      · cases h
      · exact ih h
    | call payload =>
      rcases List.mem_cons.1 h with h | h
      · cases h
        exact ⟨0, payload, rfl, rfl⟩
      · obtain ⟨k, p, rfl, hp⟩ := ih h
        exact ⟨k + 1, p, by omega, hp⟩

namespace Interpreter

/-- the state in which a preloaded chain starts: behind the arguments there are, those lifted out of its own text -/
def nestedStart (t : Text) (arguments : List Argument) : Interpreter :=
  { arguments := arguments ++ (lift (Text.trim t) arguments.length).arguments }

/-- the links of a preloaded chain -/
def nestedLinks (root t : Text) (arguments : List Argument) : Except Fault (List Link) :=
  parse (lift (Text.trim t) arguments.length).skeleton root

variable {root t : Text} {arguments : List Argument} {links : List Link}

/-- **A preloaded chain calls its own arguments only**: each of its calls is on one that was lifted out of its text, and
that one is shorter than the text. -/
theorem calls_fresh (h : nestedLinks root t arguments = .ok links) {index : Nat} (hmem : .call index ∈ links) :
    ∃ k a, index = arguments.length + k ∧ (lift (Text.trim t) arguments.length).arguments[k]? = some a ∧
      a.raw.length < t.length := by
  obtain ⟨sources, hsources, rfl⟩ := spelled_of_parse h
  obtain ⟨k, p, rfl, hp⟩ := call_mem_numbered hmem
  have hshort : p.length < t.length := hsources.of_trim.length_lt (List.mem_of_getElem? hp)
  refine ⟨k, .classify p, rfl, ?_, by rwa [raw_classify]⟩
  rw [arguments_lift_chain hsources, List.getElem?_map, hp]
  rfl

/-- the argument of a call of a preloaded chain, wherever the chain has got to -/
theorem nestedStart_getElem? {k : Nat} {a : Argument}
    (h : (lift (Text.trim t) arguments.length).arguments[k]? = some a) {later : List Argument}
    (hlater : (nestedStart t arguments).arguments <+: later) : later[arguments.length + k]? = some a := by
  apply getElem?_mono hlater
  change (arguments ++ (lift (Text.trim t) arguments.length).arguments)[arguments.length + k]? = some a
  rw [List.getElem?_append_right (Nat.le_add_right _ _), Nat.add_sub_cancel_left, h]

/-! ## What an operation preloads -/

/-- the argument whose chain an operation preloads, if it preloads one -/
def preloaded? (s : Interpreter) : Link → Option Argument
  | .access _ => none
  | .call index =>
    if s.finished || s.stylePending || !s.preloadPending then none
    else s.arguments[index]?.filter fun a => !a.isEmpty

/-- the state behind a preloaded chain, with its fault if it has failed -/
def afterPreload (s : Interpreter) : Nested → Interpreter × Option Fault
  | (arguments, .error fault) => ({ s with preloadPending := false, arguments := arguments }, some fault)
  | (arguments, .ok o) => (s.takeOver arguments o, none)

variable {s : Interpreter} {link : Link} {a : Argument}

theorem preloaded?_eq_some : s.preloaded? link = some a ↔ ∃ index, link = .call index ∧ s.finished = false ∧
    s.stylePending = false ∧ s.preloadPending = true ∧ s.arguments[index]? = some a ∧ a.isEmpty = false := by
  cases link with
  | access name => simp [preloaded?]
  | call index =>
    simp only [preloaded?, Link.call.injEq, exists_eq_left']
    split
    · rename_i hoff
      simp only [Bool.or_eq_true, Bool.not_eq_true'] at hoff
      constructor
      · intro h
        cases h
      · intro h
        obtain ⟨hfin, hstyle, hpreload, _⟩ := h
        simp [hfin, hstyle, hpreload] at hoff
    · rename_i hon
      simp only [Bool.or_eq_true, Bool.not_eq_true', not_or, Bool.not_eq_true, Bool.not_eq_false] at hon
      obtain ⟨⟨hfin, hstyle⟩, hpreload⟩ := hon
      simp [hfin, hstyle, hpreload, Option.filter_eq_some_iff]

/-- an operation that preloads a chain goes by what running the chain answers -/
theorem stepWith_of_preloaded (h : s.preloaded? link = some a) (nested : Text → List Argument → Nested) (root : Text) :
    stepWith nested root s link = s.afterPreload (nested a.raw s.arguments) := by
  obtain ⟨index, rfl, hfin, hstyle, hpreload, ha, hfull⟩ := preloaded?_eq_some.1 h
  rcases hrun : nested a.raw s.arguments with ⟨arguments, fault | o⟩
  · exact (Called.preloadFailed hfin ha hstyle hpreload hfull hrun).eq
  · exact (Called.preloaded hfin ha hstyle hpreload hfull hrun).eq

/-- any other operation takes no notice of how preloaded chains are run -/
theorem stepWith_of_plain (h : s.preloaded? link = none) (nested nested' : Text → List Argument → Nested)
    (root : Text) : stepWith nested root s link = stepWith nested' root s link := by
  cases link with
  | access name => rfl
  | call index =>
    have hcall := callWith_called nested root s index
    have hnot {a : Argument} (hfin : s.finished = false) (ha : s.arguments[index]? = some a)
        (hstyle : s.stylePending = false) (hpreload : s.preloadPending = true) (hfull : a.isEmpty = false) : False := by
      have := preloaded?_eq_some.2 ⟨index, rfl, hfin, hstyle, hpreload, ha, hfull⟩
      rw [h] at this
      cases this
    change callWith nested root s index = callWith nested' root s index
    generalize hr : callWith nested root s index = r at hcall
    obtain ⟨s', fault⟩ := r
    symm
    cases hcall with
    | afterFinish hfin => exact (Called.afterFinish hfin).eq
    | noArgument hfin hnone => exact (Called.noArgument hfin hnone).eq
    | literal hfin ha hstyle => exact (Called.literal hfin ha hstyle).eq
    | skipped hfin ha hstyle hpreload hempty => exact (Called.skipped hfin ha hstyle hpreload hempty).eq
    | preloaded hfin ha hstyle hpreload hfull | preloadFailed hfin ha hstyle hpreload hfull =>
      exact (hnot hfin ha hstyle hpreload hfull).elim
    | withoutName hfin ha hstyle hpreload hnone => exact (Called.withoutName hfin ha hstyle hpreload hnone).eq
    | gated hfin ha hstyle hpreload hne => exact (Called.gated hfin ha hstyle hpreload hne).eq

/-! ## Running a preloaded chain without a depth -/

/-- two ways of running preloaded chains that agree on short texts agree on links that call short arguments -/
theorem runWith_congr {nested nested' : Text → List Argument → Nested} (hadds : OnlyAdds nested) {bound : Nat}
    (hnested : ∀ t arguments, t.length < bound → nested t arguments = nested' t arguments) (root : Text)
    (s : Interpreter) (links : List Link)
    (hlinks : ∀ index, .call index ∈ links → ∃ a, s.arguments[index]? = some a ∧ a.raw.length < bound) :
    runWith nested root s links = runWith nested' root s links := by
  induction links generalizing s with
  | nil => rfl
  | cons link rest ih =>
    have hstep : stepWith nested root s link = stepWith nested' root s link := by
      cases hpreloaded : s.preloaded? link with
      | none => exact stepWith_of_plain hpreloaded nested nested' root
      | some a =>
        obtain ⟨index, rfl, _, _, _, ha, _⟩ := preloaded?_eq_some.1 hpreloaded
        obtain ⟨b, hb, hshort⟩ := hlinks index List.mem_cons_self
        obtain rfl := Option.some.inj (ha.symm.trans hb)
        rw [stepWith_of_preloaded hpreloaded, stepWith_of_preloaded hpreloaded, hnested _ _ hshort]
    have hrest : ∀ index, .call index ∈ rest →
        ∃ a, (stepWith nested root s link).1.arguments[index]? = some a ∧ a.raw.length < bound := by
      intro index hmem
      obtain ⟨a, ha, hshort⟩ := hlinks index (List.mem_cons_of_mem _ hmem)
      exact ⟨a, getElem?_mono (stepWith_arguments hadds root s link) ha, hshort⟩
    rw [runWith_cons, runWith_cons, ← hstep, ih _ hrest]

/-- the calls of a preloaded chain find arguments shorter than its text -/
theorem nestedStart_calls (h : nestedLinks root t arguments = .ok links) (index : Nat) (hmem : .call index ∈ links) :
    ∃ a, (nestedStart t arguments).arguments[index]? = some a ∧ a.raw.length < t.length := by
  obtain ⟨k, a, rfl, ha, hshort⟩ := calls_fresh h hmem
  exact ⟨a, nestedStart_getElem? ha List.prefix_rfl, hshort⟩

/-- what running the links of a preloaded chain answers -/
def answer : Interpreter × Option Fault → Nested
  | (s, some fault) => (s.arguments, .error fault)
  | (s, none) => (s.arguments, .ok s.outcome)

theorem runText_eq (root : Text) (depth : Nat) (t : Text) (arguments : List Argument) :
    runText root (depth + 1) t arguments =
      match nestedLinks root t arguments with
      | .error fault => ((nestedStart t arguments).arguments, .error fault)
      | .ok links => answer (runWith (runText root depth) root (nestedStart t arguments) links) := by
  rw [runText_succ]
  change (match nestedLinks root t arguments with
    | .error fault => _
    | .ok links => _) = _
  cases nestedLinks root t arguments with
  | error fault => rfl
  | ok links =>
    simp only
    rcases hrun : runWith (runText root depth) root (nestedStart t arguments) links with ⟨s, _ | fault⟩ <;>
      rw [nestedStart] at hrun <;> rw [hrun] <;> rfl

/-- every depth beyond the length of the text is enough -/
theorem runText_enough (root : Text) (depth depth' : Nat) (t : Text) (arguments : List Argument)
    (h : t.length < depth) (h' : t.length < depth') : runText root depth t arguments = runText root depth' t arguments := by
  induction depth generalizing depth' t arguments with
  | zero => exact absurd h (Nat.not_lt_zero _)
  | succ depth ih =>
    obtain ⟨depth', rfl⟩ : ∃ d, depth' = d + 1 := Nat.exists_eq_succ_of_ne_zero (by omega)
    rw [runText_eq, runText_eq]
    cases hlinks : nestedLinks root t arguments with
    | error fault => rfl
    | ok links =>
      have hrun : runWith (runText root depth) root (nestedStart t arguments) links =
          runWith (runText root depth') root (nestedStart t arguments) links := by
        refine runWith_congr (runText_arguments root depth) ?_ root _ links (nestedStart_calls hlinks)
        intro x arguments hx
        exact ih depth' x arguments (by omega) (by omega)
      simp only [hrun]

/-- **A preloaded chain is run by running its links**, in which further chains are preloaded in the same way. -/
theorem preload_eq (root t : Text) (arguments : List Argument) :
    preload root t arguments =
      match nestedLinks root t arguments with
      | .error fault => ((nestedStart t arguments).arguments, .error fault)
      | .ok links => answer (run root (nestedStart t arguments) links) := by
  rw [preload, runText_eq]
  cases hlinks : nestedLinks root t arguments with
  | error fault => rfl
  | ok links =>
    have hrun : runWith (runText root t.length) root (nestedStart t arguments) links =
        run root (nestedStart t arguments) links := by
      refine runWith_congr (runText_arguments root t.length) ?_ root _ links (nestedStart_calls hlinks)
      intro x arguments hx
      exact runText_enough root t.length (x.length + 1) x arguments hx (Nat.lt_succ_self _)
    simp only [hrun]

/-! ## Executions -/

/-- the links take the state to the result, and the chains preloaded on the way are nested `depth` deep -/
inductive Executes (root : Text) : (depth : Nat) → Interpreter → List Link → Interpreter × Option Fault → Prop
  | done (s : Interpreter) : Executes root 0 s [] (s, none)
  /-- an operation that preloads no chain -/
  | plain {depth : Nat} {s m : Interpreter} {link : Link} {rest : List Link} {r : Interpreter × Option Fault} :
      (∀ nested, stepWith nested root s link = (m, none)) → Executes root depth m rest r →
      Executes root depth s (link :: rest) r
  | fails {s s' : Interpreter} {link : Link} {rest : List Link} {fault : Fault} :
      (∀ nested, stepWith nested root s link = (s', some fault)) →
      Executes root 0 s (link :: rest) (s', some fault)
  /-- a preloaded text that is no chain -/
  | unread {s : Interpreter} {link : Link} {a : Argument} {rest : List Link} {fault : Fault} :
      s.preloaded? link = some a → nestedLinks root a.raw s.arguments = .error fault →
      Executes root 1 s (link :: rest) (s.afterPreload ((nestedStart a.raw s.arguments).arguments, .error fault))
  | preloadFails {depth : Nat} {s inner : Interpreter} {link : Link} {a : Argument} {links rest : List Link}
      {fault : Fault} : s.preloaded? link = some a → nestedLinks root a.raw s.arguments = .ok links →
      Executes root depth (nestedStart a.raw s.arguments) links (inner, some fault) →
      Executes root (depth + 1) s (link :: rest) (s.afterPreload (inner.arguments, .error fault))
  | preload {depth depth' : Nat} {s inner : Interpreter} {link : Link} {a : Argument} {links rest : List Link}
      {r : Interpreter × Option Fault} : s.preloaded? link = some a →
      nestedLinks root a.raw s.arguments = .ok links →
      Executes root depth (nestedStart a.raw s.arguments) links (inner, none) →
      Executes root depth' (s.takeOver inner.arguments inner.outcome) rest r →
      Executes root (max (depth + 1) depth') s (link :: rest) r

/-- on the way along the links, in state `m`, the chain in an argument is preloaded -/
inductive Preloads (root : Text) : Interpreter → List Link → Interpreter → Argument → Prop
  | here {s : Interpreter} {link : Link} {rest : List Link} {a : Argument} : s.preloaded? link = some a →
      Preloads root s (link :: rest) s a
  | later {s s' m : Interpreter} {link : Link} {rest : List Link} {a : Argument} : step root s link = (s', none) →
      Preloads root s' rest m a → Preloads root s (link :: rest) m a

theorem run_cons (root : Text) (s : Interpreter) (link : Link) (rest : List Link) :
    run root s (link :: rest) =
      match step root s link with
      | (m, none) => run root m rest
      | (m, some fault) => (m, some fault) := rfl

/-- an operation that preloads a chain answers as the run of its links does -/
theorem step_of_preloaded (root : Text) (h : s.preloaded? link = some a) :
    step root s link = s.afterPreload (
      match nestedLinks root a.raw s.arguments with
      | .error fault => ((nestedStart a.raw s.arguments).arguments, .error fault)
      | .ok links => answer (run root (nestedStart a.raw s.arguments) links)) := by
  rw [step, stepWith_of_preloaded h, preload_eq]

/-- a preloaded argument was called on the way -/
theorem Preloads.called {m : Interpreter} (h : Preloads root s links m a) :
    ∃ index, .call index ∈ links ∧ m.arguments[index]? = some a ∧ s.arguments <+: m.arguments := by
  induction h with
  | here hpreloaded =>
    obtain ⟨index, rfl, _, _, _, ha, _⟩ := preloaded?_eq_some.1 hpreloaded
    exact ⟨index, List.mem_cons_self, ha, List.prefix_rfl⟩
  | @later s s' m link rest a hstep _ ih =>
    obtain ⟨index, hmem, ha, hprefix⟩ := ih
    have hfirst := stepWith_arguments (preload_onlyAdds root) root s link
    change s.arguments <+: (step root s link).1.arguments at hfirst
    rw [hstep] at hfirst
    exact ⟨index, List.mem_cons_of_mem _ hmem, ha, hfirst.trans hprefix⟩

/-- what a preloaded chain preloads is shorter than its own text -/
theorem Preloads.shorter (hlinks : nestedLinks root t arguments = .ok links) {m : Interpreter}
    (h : Preloads root (nestedStart t arguments) links m a) : a.raw.length < t.length := by
  obtain ⟨index, hmem, ha, hprefix⟩ := h.called
  obtain ⟨k, b, rfl, hb, hshort⟩ := calls_fresh hlinks hmem
  obtain rfl := Option.some.inj (ha.symm.trans (nestedStart_getElem? hb hprefix))
  exact hshort

/-! ## Every run is an execution -/

/-- links of which every preloaded chain has an execution have one themselves -/
theorem executes_of_preloads {root : Text} {s : Interpreter} {links : List Link}
    (h : ∀ m a, Preloads root s links m a → ∀ nested, nestedLinks root a.raw m.arguments = .ok nested →
      ∃ depth, Executes root depth (nestedStart a.raw m.arguments) nested
        (run root (nestedStart a.raw m.arguments) nested)) :
    ∃ depth, Executes root depth s links (run root s links) := by
  induction links generalizing s with
  | nil => exact ⟨0, .done s⟩
  | cons link rest ih =>
    rw [run_cons]
    cases hpreloaded : s.preloaded? link with
    | none =>
      have hany (nested : Text → List Argument → Nested) : stepWith nested root s link = step root s link :=
        stepWith_of_plain hpreloaded nested (preload root) root
      rcases hstep : step root s link with ⟨m, _ | fault⟩
      · obtain ⟨depth, hrest⟩ := ih fun m' a hm => h m' a (.later hstep hm)
        exact ⟨depth, .plain (fun nested => (hany nested).trans hstep) hrest⟩
      · exact ⟨0, .fails fun nested => (hany nested).trans hstep⟩
    | some a =>
      have hstep := step_of_preloaded root hpreloaded
      cases hlinks : nestedLinks root a.raw s.arguments with
      | error fault =>
        simp only [hlinks] at hstep
        rw [hstep]
        exact ⟨1, .unread hpreloaded hlinks⟩
      | ok nested =>
        obtain ⟨depth, hnested⟩ := h s a (.here hpreloaded) nested hlinks
        simp only [hlinks] at hstep
        rcases hrun : run root (nestedStart a.raw s.arguments) nested with ⟨inner, _ | fault⟩
        · rw [hrun] at hnested hstep
          obtain ⟨depth', hrest⟩ := ih fun m' a hm => h m' a (.later hstep hm)
          rw [hstep]
          exact ⟨_, .preload hpreloaded hlinks hnested hrest⟩
        · rw [hrun] at hnested hstep
          rw [hstep]
          exact ⟨_, .preloadFails hpreloaded hlinks hnested⟩

/-- the links of a preloaded chain have an execution, by induction on the length of its text -/
theorem executes_nested (hlinks : nestedLinks root t arguments = .ok links) :
    ∃ depth, Executes root depth (nestedStart t arguments) links (run root (nestedStart t arguments) links) := by
  induction hn : t.length using Nat.strongRecOn generalizing t arguments links with
  | ind n ih =>
    subst hn
    apply executes_of_preloads
    intro m a hpreloads nested hnested
    exact ih a.raw.length (hpreloads.shorter hlinks) hnested rfl

/-- **Every run is an execution.** -/
theorem executes_run (root : Text) (s : Interpreter) (links : List Link) :
    ∃ depth, Executes root depth s links (run root s links) := by
  apply executes_of_preloads
  intro m a _ nested hnested
  exact executes_nested hnested

/-- **An execution is the run**: there is no other result. -/
theorem Executes.eq_run {depth : Nat} {r : Interpreter × Option Fault} (h : Executes root depth s links r) :
    r = run root s links := by
  induction h with
  | done s => rfl
  | plain hstep _ ih =>
    have hstep := hstep (Interpreter.preload root)
    rw [run_cons, step, hstep]
    exact ih
  | fails hstep =>
    have hstep := hstep (Interpreter.preload root)
    rw [run_cons, step, hstep]
  | unread hpreloaded hlinks =>
    rw [run_cons, step_of_preloaded _ hpreloaded, hlinks]
    rfl
  | preloadFails hpreloaded hlinks _ ih =>
    rw [run_cons, step_of_preloaded _ hpreloaded, hlinks]
    simp only [← ih]
    rfl
  | preload hpreloaded hlinks _ _ ihInner ih =>
    rw [run_cons, step_of_preloaded _ hpreloaded, hlinks]
    simp only [← ihInner]
    exact ih

theorem length_pos_of_preloaded (h : s.preloaded? link = some a) : 0 < a.raw.length := by
  obtain ⟨_, _, _, _, _, _, hfull⟩ := preloaded?_eq_some.1 h
  apply List.length_pos_of_ne_nil
  intro hnil
  rw [Argument.isEmpty, hnil] at hfull
  cases hfull

/-- **The nesting is bounded**: where chains are preloaded at all, they are nested no deeper than one of the outermost
preloaded texts is long. -/
theorem Executes.depth_le {depth : Nat} {r : Interpreter × Option Fault} (h : Executes root depth s links r) :
    depth = 0 ∨ ∃ m a, Preloads root s links m a ∧ depth ≤ a.raw.length := by
  -- what is preloaded inside of a preloaded text is shorter, which leaves room for one more level
  have inside {s : Interpreter} {a : Argument} {links : List Link} {depth : Nat} (hpos : 0 < a.raw.length)
      (hlinks : nestedLinks root a.raw s.arguments = .ok links)
      (ih : depth = 0 ∨ ∃ m b, Preloads root (nestedStart a.raw s.arguments) links m b ∧ depth ≤ b.raw.length) :
      depth + 1 ≤ a.raw.length := by
    rcases ih with rfl | ⟨m, b, hpreloads, hle⟩
    · exact hpos
    · exact Nat.lt_of_le_of_lt hle (hpreloads.shorter hlinks)
  induction h with
  | done | fails => exact Or.inl rfl
  | plain hstep _ ih =>
    rcases ih with h0 | ⟨m, a, hpreloads, hle⟩
    · exact Or.inl h0
    · exact Or.inr ⟨m, a, .later (hstep _) hpreloads, hle⟩
  | unread hpreloaded hlinks => exact Or.inr ⟨_, _, .here hpreloaded, length_pos_of_preloaded hpreloaded⟩
  | preloadFails hpreloaded hlinks _ ih =>
    exact Or.inr ⟨_, _, .here hpreloaded, inside (length_pos_of_preloaded hpreloaded) hlinks ih⟩
  | @preload depth depth' s inner link a links rest r hpreloaded hlinks hinner _ ihInner ih =>
    have hhere := inside (length_pos_of_preloaded hpreloaded) hlinks ihInner
    have hstep : step root s link = (s.takeOver inner.arguments inner.outcome, none) := by
      rw [step_of_preloaded root hpreloaded, hlinks]
      simp only [← hinner.eq_run]
      rfl
    -- the deeper of the two levels is bounded by the argument preloaded here, or by one preloaded later
    right
    by_cases hdeeper : depth' ≤ a.raw.length
    · exact ⟨s, a, .here hpreloaded, Nat.max_le.2 ⟨hhere, hdeeper⟩⟩
    · rcases ih with rfl | ⟨m, b, hpreloads, hle⟩
      · exact absurd (Nat.zero_le _) hdeeper
      · exact ⟨m, b, .later hstep hpreloads, by omega⟩

/-- **Every run comes to an end.** From any state, on any arguments and with any operations, there is an execution, finite
and without a bound on the nesting, and the run is its result; its nesting is no deeper than one of the outermost preloaded
texts is long. For a preloaded chain calls nothing but what was lifted out of its own text, behind the arguments there
were: each of its calls finds one of these arguments at any time, and that one is shorter than the text. -/
theorem run_terminates (root : Text) (s : Interpreter) (links : List Link) :
    (∃ depth, Executes root depth s links (run root s links)) ∧
      (∀ depth r, Executes root depth s links r → r = run root s links ∧
        (depth = 0 ∨ ∃ m a, Preloads root s links m a ∧ depth ≤ a.raw.length)) ∧
      ∀ t arguments nested, nestedLinks root t arguments = .ok nested → ∀ index, .call index ∈ nested →
        ∃ k a, index = arguments.length + k ∧ (lift (Text.trim t) arguments.length).arguments[k]? = some a ∧
          a.raw.length < t.length ∧
          ∀ passed, (run root (nestedStart t arguments) passed).1.arguments[index]? = some a := by
  refine ⟨executes_run root s links, fun depth r h => ⟨h.eq_run, h.depth_le⟩, ?_⟩
  intro t arguments nested hnested index hmem
  obtain ⟨k, a, rfl, ha, hshort⟩ := calls_fresh hnested hmem
  refine ⟨k, a, rfl, ha, hshort, ?_⟩
  intro passed
  apply nestedStart_getElem? ha
  exact runWith_arguments (preload_onlyAdds root) root _ passed

/-- a text that preloads a chain -/
def preloadingText : Text := "SS.preload(SS.bold(y))".toList

/-- arguments made by hand: the value of the second does not fit its text, which preloads a chain -/
def handMade : List Argument := [.classify "x".toList, ⟨.constant, [], preloadingText⟩]

/-- a chain preloaded from the second of these arguments preloads another one, from its own first argument -/
theorem run_terminates_nested :
    (∃ depth, Executes "SS".toList depth { arguments := handMade } [.access preloadName, .call 1]
      (run "SS".toList { arguments := handMade } [.access preloadName, .call 1])) ∧
      (run "SS".toList { arguments := handMade } [.access preloadName, .call 1]).1.candidates =
        [⟨"bold".toList, false, .argument 3⟩] ∧
      nestedLinks "SS".toList preloadingText handMade = .ok [.access preloadName, .call 2] ∧
      ∃ k a, 2 = handMade.length + k ∧ a.raw.length < preloadingText.length ∧
        (run "SS".toList (nestedStart preloadingText handMade) [.access preloadName]).1.arguments[2]? = some a := by
  obtain ⟨hends, _, hfresh⟩ := run_terminates "SS".toList { arguments := handMade } [.access preloadName, .call 1]
  have hnested : nestedLinks "SS".toList preloadingText handMade = .ok [.access preloadName, .call 2] := rfl
  obtain ⟨k, a, hindex, _, hshort, hthere⟩ := hfresh _ _ _ hnested 2 (by decide)
  exact ⟨hends, rfl, hnested, k, a, hindex, hshort, hthere _⟩

end Interpreter

end TerseStyle.Chain

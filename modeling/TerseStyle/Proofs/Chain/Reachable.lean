/-
States of a chain under any operations. The interpreter is driven by names and calls in any order and on any list of
arguments; an operation that fails leaves a state from which the next one goes on. What holds in every state that is
reached so is proved for one operation, from the cases of `Accessed` and `Called`, and then along the operations. A
preloaded chain runs on the same arguments, so that the same facts are needed of its run, whether it fails or not.

Results:
- `step_changes`: an operation adds candidates and styles at the end, or changes the gate of the last candidate.
- `step_sound`: gates find arguments with content, and keys have no underscores.
- `step_finished`: a finished chain refuses every operation and stays as it is.
- `drive_invariant`: all of this in every state that is reached.
-/
import TerseStyle.Proofs.Chain.Binding

namespace TerseStyle.Chain

/-! ## What is kept -/

/-- a gate that is open for good, or that finds an argument with content -/
def Gate.Grounded (arguments : List Argument) : Gate → Prop
  | .always => True
  | .argument index => ∃ a, arguments[index]? = some a ∧ a.isEmpty = false

/-- a candidate whose gate is grounded and whose key has hyphens in place of underscores -/
structure Candidate.Sound (arguments : List Argument) (c : Candidate) : Prop where
  gate : c.gate.Grounded arguments
  key : '_' ∉ c.key

theorem Gate.Grounded.mono {as bs : List Argument} (h : as <+: bs) {g : Gate} (hg : g.Grounded as) :
    g.Grounded bs := by
  cases g with
  | always => trivial
  | argument index =>
    obtain ⟨a, ha, hfull⟩ := hg
    exact ⟨a, getElem?_mono h ha, hfull⟩

theorem Candidate.Sound.mono {as bs : List Argument} (h : as <+: bs) {c : Candidate} (hc : c.Sound as) : c.Sound bs :=
  ⟨hc.gate.mono h, hc.key⟩

namespace Interpreter

/-- a state in which every candidate is sound -/
def Sound (s : Interpreter) : Prop := ∀ c ∈ s.candidates, c.Sound s.arguments

/-- what one operation may do to the candidates and styles -/
inductive Changes (s s' : Interpreter) : Prop
  /-- put some behind those there are -/
  | adds (candidates : List Candidate) (declarations : List Declaration) :
      s'.candidates = s.candidates ++ candidates → s'.declarations = s.declarations ++ declarations → Changes s s'
  /-- change the gate of the last candidate -/
  | gates (front : List Candidate) (last : Candidate) (gate : Gate) : s.candidates = front ++ [last] →
      s'.candidates = front ++ [{ last with gate := gate }] → s'.declarations = s.declarations → Changes s s'

/-- candidates and styles as they were -/
theorem Changes.none {s s' : Interpreter} (hc : s'.candidates = s.candidates) (hd : s'.declarations = s.declarations) :
    Changes s s' :=
  .adds [] [] (by rw [hc, List.append_nil]) (by rw [hd, List.append_nil])

theorem underscore_notMem_keyOf (name : Text) : '_' ∉ keyOf name := by
  intro h
  obtain ⟨c, _, hc⟩ := List.mem_map.1 h
  split at hc
  · exact absurd hc (by decide)
  · rename_i hne
    exact hne hc

theorem gateLast_concat (index : Nat) (front : List Candidate) (last : Candidate) :
    gateLast index (front ++ [last]) = front ++ [{ last with gate := .argument index }] := by
  induction front with
  | nil => rfl
  | cons c front ih =>
    obtain ⟨d, more, hcons⟩ := List.exists_cons_of_ne_nil (List.append_ne_nil_of_right_ne_nil front
      (List.cons_ne_nil last []))
    rw [List.cons_append, List.cons_append, ← ih, hcons]; rfl

/-! ## One name -/

section

variable {s s' : Interpreter} {name : Text} {fault : Option Fault}

theorem accessed_changes (h : Accessed s name s' fault) : Changes s s' := by
  cases h with
  | afterFinish | finish | responsive | style | preload => exact .none rfl rfl
  | candidate => exact .adds _ [] rfl (List.append_nil _).symm

theorem accessed_sound (h : Accessed s name s' fault) (hs : s.Sound) : s'.Sound := by
  cases h with
  | afterFinish | finish | responsive | style | preload => exact hs
  | candidate =>
    intro c hc
    rcases List.mem_append.1 hc with hc | hc
    · exact hs c hc
    · rw [List.mem_singleton] at hc
      subst hc
      exact ⟨trivial, underscore_notMem_keyOf name⟩

theorem accessed_responsive (h : Accessed s name s' fault) (hs : s.responsive = true) : s'.responsive = true := by
  cases h with
  | responsive => rfl
  | _ => exact hs

/-- only the finishing name finishes a chain -/
theorem accessed_finished_iff (h : Accessed s name s' fault) :
    s'.finished = true ↔ s.finished = true ∨ name = finishName := by
  cases h with
  | afterFinish hfin => simp [hfin]
  | finish _ hname => simp [hname]
  | responsive hfin hname | style hfin hname | preload hfin hname =>
    subst hname
    exact ⟨Or.inl, fun h => h.resolve_right (by decide)⟩
  | candidate _ hname => exact ⟨Or.inl, fun h => h.resolve_right hname⟩

theorem accessed_refused (h : Accessed s name s' fault) (hfin : s.finished = true) :
    s' = s ∧ fault = some (.nameAfterFinish name) := by
  cases h with
  | afterFinish => exact ⟨rfl, rfl⟩
  | finish h | responsive h | style h | preload h | candidate h =>
    rw [hfin] at h
    cases h

end

/-! ## One call -/

/-- a way of running preloaded chains that gives sound candidates -/
def GivesSound (nested : Text → List Argument → Nested) : Prop :=
  ∀ t arguments arguments' o, nested t arguments = (arguments', .ok o) → ∀ c ∈ o.candidates, c.Sound arguments'

variable {nested : Text → List Argument → Nested} {root : Text} {s s' : Interpreter} {fault : Option Fault}

theorem called_changes {index : Nat} (h : Called nested root s index s' fault) : Changes s s' := by
  cases h with
  | afterFinish | noArgument | skipped | preloadFailed | withoutName => exact .none rfl rfl
  | @literal a =>
    refine .adds [] (if a.isEmpty then [] else [.spread a.raw]) (List.append_nil _).symm ?_
    unfold addLiteral
    split <;> simp
  | preloaded => exact .adds _ _ rfl rfl
  | @gated a _ _ _ _ hne =>
    unfold gateBy
    split
    · exact .none rfl rfl
    · have hlast := (List.dropLast_append_getLast hne).symm
      refine .gates _ _ (.argument index) hlast ?_ rfl
      change gateLast index s.candidates = _
      rw [← gateLast_concat, ← hlast]

theorem called_sound (hadds : OnlyAdds nested) (hnested : GivesSound nested) {index : Nat}
    (h : Called nested root s index s' fault) (hs : s.Sound) : s'.Sound := by
  cases h with
  | afterFinish | noArgument | skipped | withoutName | literal => exact hs
  | @preloaded a arguments o _ _ _ _ _ hrun =>
    have hprefix := hadds a.raw s.arguments
    rw [hrun] at hprefix
    intro c hc
    rcases List.mem_append.1 hc with hc | hc
    · exact (hs c hc).mono hprefix
    · exact hnested _ _ _ _ hrun c hc
  | @preloadFailed a arguments _ _ _ _ _ _ hrun =>
    have hprefix := hadds a.raw s.arguments
    rw [hrun] at hprefix
    exact fun c hc => (hs c hc).mono hprefix
  | @gated a _ ha _ _ hne =>
    unfold gateBy
    split
    · exact hs
    · rename_i hfull
      intro c hc
      change c ∈ gateLast index s.candidates at hc
      rw [← List.dropLast_append_getLast hne, gateLast_concat, List.mem_append, List.mem_singleton] at hc
      rcases hc with hc | rfl
      · exact hs c (List.dropLast_subset _ hc)
      · exact ⟨⟨a, ha, by simpa using hfull⟩, (hs _ (List.getLast_mem hne)).key⟩

/-- a call leaves the responsive mode and the end of the chain as they are -/
theorem called_modes {index : Nat} (h : Called nested root s index s' fault) :
    s'.responsive = s.responsive ∧ s'.finished = s.finished := by
  cases h with
  | gated =>
    unfold gateBy
    split <;> exact ⟨rfl, rfl⟩
  | _ => exact ⟨rfl, rfl⟩

/-! ## Runs of preloaded chains -/

theorem stepWith_sound_candidates (hadds : OnlyAdds nested) (hnested : GivesSound nested) (root : Text) (link : Link)
    (hs : s.Sound) : (stepWith nested root s link).1.Sound := by
  cases link with
  | access name => exact accessed_sound (access_accessed s name) hs
  | call index => exact called_sound hadds hnested (callWith_called nested root s index) hs

theorem runWith_sound_candidates (hadds : OnlyAdds nested) (hnested : GivesSound nested) (root : Text)
    (links : List Link) (hs : s.Sound) : (runWith nested root s links).1.Sound := by
  induction links generalizing s with
  | nil => exact hs
  | cons link rest ih =>
    have hstep := stepWith_sound_candidates hadds hnested root link hs
    rw [runWith_cons]
    split
    · exact ih hstep
    · exact hstep

theorem runText_givesSound (root : Text) (depth : Nat) : GivesSound (runText root depth) := by
  induction depth with
  | zero =>
    intro t arguments arguments' o h c hc
    cases h
    cases hc
  | succ depth ih =>
    intro t arguments arguments' o h
    rw [runText_succ] at h
    split at h
    · cases h
    · rename_i links _
      have hinit : Sound { arguments := arguments ++ (lift (Text.trim t) arguments.length).arguments } := by
        intro c hc
        cases hc
      have hrun := runWith_sound_candidates (runText_arguments root depth) ih root links hinit
      simp only [Prod.mk.injEq] at h
      obtain ⟨rfl, h⟩ := h
      split at h
      · cases h
      · cases h
        exact hrun

/-! ## One operation -/

theorem step_arguments (root : Text) (s : Interpreter) (link : Link) : s.arguments <+: (step root s link).1.arguments :=
  stepWith_arguments (preload_onlyAdds root) root s link

/-- **An operation adds candidates and styles at the end, or changes the gate of the last candidate.** -/
theorem step_changes (root : Text) (s : Interpreter) (link : Link) : Changes s (step root s link).1 := by
  cases link with
  | access name => exact accessed_changes (access_accessed s name)
  | call index => exact called_changes (callWith_called (preload root) root s index)

/-- **Every gate finds an argument with content, and no key has an underscore**, before and after an operation. -/
theorem step_sound (root : Text) (link : Link) (hs : s.Sound) : (step root s link).1.Sound :=
  stepWith_sound_candidates (preload_onlyAdds root) (fun t => runText_givesSound root (t.length + 1) t) root link hs

/-- the responsive mode is never switched off -/
theorem step_responsive (root : Text) (link : Link) (hs : s.responsive = true) :
    (step root s link).1.responsive = true := by
  cases link with
  | access name => exact accessed_responsive (access_accessed s name) hs
  | call index =>
    have h := called_modes (callWith_called (preload root) root s index)
    exact h.1.trans hs

theorem step_finished_iff (root : Text) (s : Interpreter) (link : Link) :
    (step root s link).1.finished = true ↔ s.finished = true ∨ link = .access finishName := by
  cases link with
  | access name =>
    rw [Link.access.injEq]
    exact accessed_finished_iff (access_accessed s name)
  | call index =>
    have h := called_modes (callWith_called (preload root) root s index)
    change (callWith (preload root) root s index).1.finished = true ↔ _
    rw [h.2]
    simp

/-- the fault of an operation on a finished chain -/
def refusal : Link → Fault
  | .access name => .nameAfterFinish name
  | .call _ => .callAfterFinish

/-- **A finished chain refuses every operation and stays as it is.** -/
theorem step_finished (root : Text) (link : Link) (hfin : s.finished = true) :
    step root s link = (s, some (refusal link)) := by
  cases link with
  | access name =>
    obtain ⟨hs, hfault⟩ := accessed_refused (access_accessed s name) hfin
    exact Prod.ext hs hfault
  | call index => exact (Called.afterFinish hfin).eq

/-! ## All operations -/

/-- the state behind operations that are carried out one after the other, whether they fail or not -/
def drive (root : Text) (s : Interpreter) (links : List Link) : Interpreter :=
  links.foldl (fun s link => (step root s link).1) s

theorem drive_cons (root : Text) (s : Interpreter) (link : Link) (rest : List Link) :
    drive root s (link :: rest) = drive root (step root s link).1 rest := rfl

theorem drive_arguments (root : Text) (s : Interpreter) (links : List Link) :
    s.arguments <+: (drive root s links).arguments := by
  induction links generalizing s with
  | nil => exact List.prefix_rfl
  | cons link rest ih => exact (step_arguments root s link).trans (ih _)

theorem drive_sound (root : Text) (links : List Link) (hs : s.Sound) : (drive root s links).Sound := by
  induction links generalizing s with
  | nil => exact hs
  | cons link rest ih => exact ih (step_sound root link hs)

theorem drive_responsive (root : Text) (links : List Link) (hs : s.responsive = true) :
    (drive root s links).responsive = true := by
  induction links generalizing s with
  | nil => exact hs
  | cons link rest ih => exact ih (step_responsive root link hs)

/-- a chain is finished when the finishing name was among the operations -/
theorem drive_finished_iff (root : Text) (s : Interpreter) (links : List Link) :
    (drive root s links).finished = true ↔ s.finished = true ∨ .access finishName ∈ links := by
  induction links generalizing s with
  | nil => simp [drive]
  | cons link rest ih =>
    rw [drive_cons, ih, step_finished_iff, List.mem_cons, or_assoc]
    simp only [eq_comm]

theorem drive_finished (root : Text) (links : List Link) (hfin : s.finished = true) : drive root s links = s := by
  induction links with
  | nil => rfl
  | cons link rest ih => rw [drive_cons, step_finished root link hfin, ih]

/-- **What holds in every state of a chain.** Whatever the arguments at the start and whatever the operations, failed
ones among them, in the state `s` that they lead to: (a) the arguments at the start are still in front, and further
operations only add some behind those of `s`; (b), (c) every gate is open for good or finds an argument with content, and
no key has an underscore; (d) the next operation adds candidates and styles at the end, or changes the gate of the last
candidate; (e) the responsive mode stays on under further operations; (f) behind the finishing name every operation fails
and further operations leave the state as it is. -/
theorem drive_invariant (root : Text) (arguments : List Argument) (links : List Link) :
    let s := drive root { arguments } links
    (arguments <+: s.arguments ∧ ∀ more, s.arguments <+: (drive root s more).arguments) ∧
      (∀ c ∈ s.candidates, c.gate.Grounded s.arguments) ∧
      (∀ c ∈ s.candidates, '_' ∉ c.key) ∧
      (∀ link, Changes s (step root s link).1) ∧
      (s.responsive = true → ∀ more, (drive root s more).responsive = true) ∧
      (.access finishName ∈ links →
        (∀ link, step root s link = (s, some (refusal link))) ∧ ∀ more, drive root s more = s) := by
  intro s
  have hinit : Sound { arguments := arguments } := by
    intro c hc
    cases hc
  have hsound : s.Sound := drive_sound root links hinit
  refine ⟨⟨drive_arguments root { arguments } links, drive_arguments root s⟩, fun c hc => (hsound c hc).gate,
    fun c hc => (hsound c hc).key, step_changes root s, fun hs more => drive_responsive root more hs, ?_⟩
  intro hmem
  have hfin : s.finished = true := (drive_finished_iff root _ links).2 (Or.inr hmem)
  exact ⟨fun link => step_finished root link hfin, fun more => drive_finished root more hfin⟩

/-- a preload whose chain cannot be read fails, but leaves its arguments behind; the empty call after it gates nothing;
what comes behind the finishing name is refused -/
theorem drive_invariant_failed_preload :
    let operations : List Link :=
      [.access "a_b".toList, .call 0, .access preloadName, .call 1, .call 2, .access finishName, .call 0]
    let s := drive "SS".toList
      { arguments := [.classify "x".toList, .classify "SS(y)!".toList, .classify " ".toList] } operations
    .access finishName ∈ operations ∧ s.candidates = [⟨"a-b".toList, false, .argument 0⟩] ∧ s.arguments.length = 4 ∧
      drive "SS".toList s [.access "c".toList, .call 3] = s := by
  intro operations s
  obtain ⟨_, _, _, _, _, hfrozen⟩ := drive_invariant "SS".toList
    [.classify "x".toList, .classify "SS(y)!".toList, .classify " ".toList] operations
  have hmem : Link.access finishName ∈ operations := by decide
  exact ⟨hmem, rfl, rfl, (hfrozen hmem).2 _⟩

end Interpreter

end TerseStyle.Chain

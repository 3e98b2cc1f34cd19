/-
Gates at resolution. What a candidate becomes depends on its key, its mode and the argument at the index of its gate,
not on the index or on what else the list of arguments holds; a candidate that is bound never fails for want of an
argument. The candidates that a chain hands to resolution are bound, to the arguments of the calls that gated them.

Results:
- `Outcome.BoundBy.resolve_eq`: outcomes bound to one meaning, under whatever indices, compile alike.
- `compile_gates_bound`: no text compiles to a dangling reference, neither of a call nor of a gate.
-/
import TerseStyle.Chain.Compile
import TerseStyle.Proofs.Chain.Binding

namespace TerseStyle.Chain

/-! ## One candidate -/

theorem gateArgument_eq {arguments : List Argument} {c : Candidate} {index : Nat} {a : Argument}
    (h : arguments[index]? = some a) : c.gateArgument arguments index = .ok a := by
  rw [Candidate.gateArgument, h]

/-- candidates bound to the same become the same -/
theorem Candidate.BoundBy.resolve_eq {as bs : List Argument} {c d : Candidate} {b : BoundCandidate}
    (hc : c.BoundBy as b) (hd : d.BoundBy bs b) (v : Vocabulary) : c.resolve v as = d.resolve v bs := by
  obtain ⟨key, responsive, gate⟩ := c
  obtain ⟨key', responsive', gate'⟩ := d
  obtain ⟨name, mode, a⟩ := b
  obtain ⟨rfl, rfl, hgate⟩ := hc
  obtain ⟨hkey, hresponsive, hgate'⟩ := hd
  obtain rfl : key' = key := hkey
  obtain rfl : responsive' = responsive := hresponsive
  unfold Candidate.resolve
  cases hgate with
  | always =>
    cases hgate' with
    | always => cases v.classOf? key' <;> rfl
  | argument ha =>
    cases hgate' with
    | argument hb =>
      cases v.classOf? key' <;> simp only [gateArgument_eq ha, gateArgument_eq hb] <;> rfl

/-- a candidate that the vocabulary does not know fails under a variable, if it is responsive -/
theorem Candidate.arbitraryValue_error_iff {v : Vocabulary} {c : Candidate} {a : Argument} {e : CompileError} :
    c.arbitraryValue v a = .error e ↔ a.kind = .variable ∧ c.responsive = true ∧ e = .responsiveVariable c.key := by
  unfold arbitraryValue
  cases a.kind with
  | «variable» =>
    cases c.responsive with
    | true => simp [eq_comm]
    | false => simp
  | constant => cases v.prefixOf? c.key <;> simp

/-- a bound candidate fails for one reason only: a variable under `$s` that the vocabulary has no class for -/
theorem Candidate.BoundBy.resolve_error {arguments : List Argument} {c : Candidate} {b : BoundCandidate}
    (h : c.BoundBy arguments b) {v : Vocabulary} {e : CompileError} (he : c.resolve v arguments = .error e) :
    e = .responsiveVariable c.key := by
  obtain ⟨key, responsive, gate⟩ := c
  obtain ⟨name, mode, a⟩ := b
  obtain ⟨_, _, hgate⟩ := h
  unfold Candidate.resolve at he
  cases hgate with
  | always =>
    cases hclass : v.classOf? key with
    | none =>
      simp only [hclass] at he
      split at he <;> cases he
    | some className => simp only [hclass] at he; cases he
  | argument ha =>
    cases hclass : v.classOf? key with
    | none =>
      simp only [hclass, gateArgument_eq ha] at he
      exact (arbitraryValue_error_iff.1 he).2.2
    | some className => simp only [hclass, gateArgument_eq ha] at he; cases he

/-! ## All candidates -/

theorem resolveAll_eq {as bs : List Argument} {cs ds : List Candidate} {ms : List BoundCandidate}
    (hcs : List.Forall₂ (Candidate.BoundBy as) cs ms) (hds : List.Forall₂ (Candidate.BoundBy bs) ds ms)
    (v : Vocabulary) : resolveAll v as cs = resolveAll v bs ds := by
  induction hcs generalizing ds with
  | nil => cases hds; rfl
  | cons hc _ ih =>
    cases hds with
    | cons hd hrest =>
      unfold resolveAll
      rw [hc.resolve_eq hd v, ih hrest]

theorem resolveAll_error {arguments : List Argument} {cs : List Candidate} {ms : List BoundCandidate}
    (h : List.Forall₂ (Candidate.BoundBy arguments) cs ms) {v : Vocabulary} {e : CompileError}
    (he : (resolveAll v arguments cs).2 = some e) : ∃ key, e = .responsiveVariable key := by
  induction h with
  | nil => cases he
  | @cons c b cs ms hc _ ih =>
    unfold resolveAll at he
    split at he
    · rename_i e' he'
      cases he
      exact ⟨c.key, hc.resolve_error he'⟩
    · exact ih he

/-- outcomes bound to one meaning compile alike -/
theorem Outcome.BoundBy.resolve_eq {as bs : List Argument} {o o' : Outcome} {m : Meaning} (ho : o.BoundBy as m)
    (ho' : o'.BoundBy bs m) (v : Vocabulary) (icons : List Text) : resolve v as o icons = resolve v bs o' icons := by
  unfold resolve
  rw [resolveAll_eq ho.candidates ho'.candidates v, ho.declarations, ho'.declarations]

theorem Outcome.BoundBy.resolve_error {arguments : List Argument} {o : Outcome} {m : Meaning}
    (h : o.BoundBy arguments m) {v : Vocabulary} {icons : List Text} {e : CompileError}
    (he : (resolve v arguments o icons).result = .error e) : ∃ key, e = .responsiveVariable key := by
  unfold resolve at he
  simp only at he
  split at he
  · rename_i e' he'
    cases he
    exact resolveAll_error h.candidates he'
  · cases he

/-! ## Whole texts -/

/-- what a text compiles to without its icon markers: the fault of its chain, or what the outcome of its chain resolves
to, every gate bound as the meaning of the text has it -/
theorem compile_cases (settings : Settings) (t : Text) :
    (∃ arguments fault, Interpreter.preload settings.root (takeIcons settings.iconEscapes t).1 [] =
        (arguments, .error fault) ∧ (compile settings t).result = .error (.chain fault)) ∨
      ∃ arguments o m, Interpreter.preload settings.root (takeIcons settings.iconEscapes t).1 [] = (arguments, .ok o) ∧
        Means settings.root (takeIcons settings.iconEscapes t).1 m ∧ o.finish.BoundBy arguments m.finish ∧
        compile settings t =
          resolve settings.vocabulary arguments o.finish (takeIcons settings.iconEscapes t).2 := by
  unfold compile
  simp only
  rcases hrun : Interpreter.preload settings.root (takeIcons settings.iconEscapes t).1 [] with ⟨arguments, fault | o⟩
  · exact Or.inl ⟨arguments, fault, rfl, rfl⟩
  · obtain ⟨m, hm, ho⟩ := Interpreter.preload_sound hrun
    exact Or.inr ⟨arguments, o, m, rfl, hm, ho.finish, rfl⟩

/-- **No dangling reference.** No text compiles to the error of a gate without an argument or of a call on an argument
that does not exist. Wherever a chain is read, at the top or preloaded, the index of each of its calls finds the payload
of that very call, and the gate of each candidate that goes on to resolution finds the argument of the call that the
meaning of the text gates it by. -/
theorem compile_gates_bound (settings : Settings) (t : Text) :
    (∀ key index, (compile settings t).result ≠ .error (.danglingGate key index)) ∧
      (∀ index, (compile settings t).result ≠ .error (.chain (.noArgument index))) ∧
      (∀ text arguments links, parse (lift (Text.trim text) arguments.length).skeleton settings.root = .ok links →
        ∃ sources, SpelledChain settings.root sources text ∧
          List.Forall₂ (Link.BoundBy (arguments ++ (lift (Text.trim text) arguments.length).arguments)) links sources) ∧
      ∀ arguments o, Interpreter.preload settings.root (takeIcons settings.iconEscapes t).1 [] = (arguments, .ok o) →
        ∃ m, Means settings.root (takeIcons settings.iconEscapes t).1 m ∧ o.finish.BoundBy arguments m.finish := by
  refine ⟨?_, ?_, fun text arguments links h => boundBy_of_parse h, ?_⟩
  · intro key index h
    rcases compile_cases settings t with ⟨arguments, fault, _, hresult⟩ | ⟨arguments, o, m, _, _, ho, hcompile⟩
    · rw [hresult] at h
      cases h
    · rw [hcompile] at h
      obtain ⟨_, hkey⟩ := ho.resolve_error h
      cases hkey
  · intro index h
    rcases compile_cases settings t with ⟨arguments, fault, hrun, hresult⟩ | ⟨arguments, o, m, _, _, ho, hcompile⟩
    · rw [hresult] at h
      cases h
      exact Interpreter.runText_ne_noArgument _ _ _ _ index (congrArg Prod.snd hrun)
    · rw [hcompile] at h
      obtain ⟨_, hkey⟩ := ho.resolve_error h
      cases hkey
  · intro arguments o h
    obtain ⟨m, hm, ho⟩ := Interpreter.preload_sound h
    exact ⟨m, hm, ho.finish⟩

/-- the gate of a preloaded candidate counts from behind the arguments of the chain around it -/
theorem compile_gates_bound_preloaded :
    ∃ arguments o, ∃ m : Meaning, Interpreter.preload Settings.standard.root
          (takeIcons Settings.standard.iconEscapes "SS.bold(a).preload(SS.red(b))".toList).1 [] = (arguments, .ok o) ∧
      o.finish.BoundBy arguments m.finish ∧ o.candidates.map (·.gate) = [.argument 0, .argument 2] := by
  obtain ⟨_, _, _, hbound⟩ := compile_gates_bound .standard "SS.bold(a).preload(SS.red(b))".toList
  obtain ⟨m, _, ho⟩ := hbound _ _ rfl
  exact ⟨_, _, m, rfl, ho, rfl⟩

end TerseStyle.Chain

/-
Preloading as inlining. A preloaded chain can be written out in place of the call that preloads it, if neither it nor
the chain in front of it changes a mode for good: the meaning stays, though the arguments are numbered in another order.

Results:
- `SpelledChain.inlined`: the links of a chain, and a call that preloads it, lead to the same state.
- `means_inlined_iff`: so the two texts have the same meanings, and one runs if the other does.
- `compile_inlined`: so they compile to the same.
-/
import TerseStyle.Proofs.Chain.Gating

namespace TerseStyle.Chain

open Text (isBlankOnly isBlankOnly_append)

/-! ## On links -/

/-- a run that starts with links known to lead to one state goes on from there -/
theorem Runs.append_iff {root : Text} {p m q : Progress} {as bs : List SourceLink} (h : Runs root p as m) :
    Runs root p (as ++ bs) q ↔ Runs root m bs q := by
  rw [runs_append]
  constructor
  · intro h
    obtain ⟨n, ha, hb⟩ := h
    rwa [h.deterministic ha]
  · intro hb
    exact ⟨m, h, hb⟩

/-- links that switch nothing on for good lead from the start to a state in which nothing is on -/
theorem Runs.passing {root : Text} {p : Progress} {links : List SourceLink} (h : Runs root {} links p)
    (hpassing : Passing links) : p = Progress.behind p.meaning {} := by
  obtain ⟨hresponsive, hfinish, hpending⟩ := hpassing
  have hmodes := h.pending
  rw [hpending, Prod.mk.injEq] at hmodes
  obtain ⟨hresponsive, hfinished⟩ := h.flags hresponsive hfinish
  obtain ⟨candidates, declarations, responsive, stylePending, preloadPending, finished⟩ := p
  obtain ⟨rfl, rfl⟩ := hmodes
  obtain rfl : responsive = false := hresponsive
  obtain rfl : finished = false := hfinished
  simp [Progress.behind, Progress.meaning]

/-- the two links that preload a text -/
def preloadLinks (t : Text) : List SourceLink := [.access preloadName, .call t]

/-- a chain and a call that preloads it lead to the same state, from one in which nothing is on -/
theorem SpelledChain.inlined {root payload : Text} {links : List SourceLink} {inner : Progress}
    (hspelled : SpelledChain root links payload) (hinner : Runs root {} links inner) (hpassing : Passing links)
    (m : Meaning) :
    Runs root (Progress.behind m {}) links (inner.behind m) ∧
      Runs root (Progress.behind m {}) (preloadLinks payload) (inner.behind m) := by
  refine ⟨hinner.behind m, .access rfl ?_⟩
  have hname : (Progress.behind m {}).access preloadName = { Progress.behind m {} with preloadPending := true } := by
    unfold Progress.access
    rw [if_neg (by decide), if_neg (by decide), if_neg (by decide), if_pos rfl]
  rw [hname]
  cases hblank : isBlankOnly payload with
  | true =>
    obtain rfl := hspelled.eq_nil_of_blank hblank
    cases hinner
    exact .skip rfl rfl rfl hblank .done
  | false =>
    have hstate : Progress.preload { Progress.behind m {} with preloadPending := true } inner.meaning =
        inner.behind m := by
      rw [hinner.passing hpassing]
      simp [Progress.preload, Progress.behind, Progress.meaning]
    refine .preload rfl rfl rfl hblank hspelled hinner ?_
    rw [hstate]
    exact .done

/-! ## On texts -/

/-- how a preloaded text is written as two links -/
def preloadText (t : Text) : Text := ".preload(".toList ++ t ++ [')']

theorem length_le_preloadText (t : Text) : t.length ≤ (preloadText t).length := by
  unfold preloadText
  simp only [List.length_append]
  omega

theorem spells_preloadText {t : Text} (h : Balanced t) : Spells (preloadLinks t) (preloadText t) := by
  have hname : (SourceLink.access preloadName).Spelled ('.' :: preloadName) :=
    .access_flush (by decide) (List.all_eq_true.1 (by decide))
  have heq : preloadText t = '.' :: preloadName ++ ('(' :: (t ++ [')']) ++ []) := by
    unfold preloadText preloadName
    simp
  rw [heq]
  exact (Spells.nil.cons_flush (.call h)).cons_flush hname

variable {root N : Text} {n : List SourceLink}

/-- a row of links that is run alone behind its root -/
theorem runs_of_preload (hN : Spells n N) {arguments : List Argument} {o : Outcome}
    (h : Interpreter.preload root (root ++ N) [] = (arguments, .ok o)) :
    SpelledChain root n (root ++ N) ∧ Balanced (root ++ N) ∧ ∃ inner, Runs root {} n inner := by
  obtain ⟨_, ⟨links, inner, hlinks, hinner, _⟩, _⟩ := Interpreter.preload_sound h
  have hspelled : SpelledChain root n (root ++ N) := .of_spells hlinks.isNameChar_root hN
  obtain rfl := hlinks.unique hspelled
  have hroot : Balanced root := balanced_of_plain fun c hc => Or.inr (hspelled.isNameChar_root c hc)
  exact ⟨hspelled, hroot.append hN.balanced, inner, hinner⟩

/-- **The meaning of a chain is that of the chain with a preloaded chain written out.** -/
theorem means_inlined_iff {P Q : Text} {p q : List SourceLink} (hP : Spells p P) (hN : Spells n N) (hQ : Spells q Q)
    (hp : Passing p) (hn : Passing n) {arguments : List Argument} {o : Outcome}
    (h : Interpreter.preload root (root ++ N) [] = (arguments, .ok o)) (m : Meaning) :
    Means root (root ++ (P ++ (preloadText (root ++ N) ++ Q))) m ↔ Means root (root ++ (P ++ (N ++ Q))) m := by
  obtain ⟨hspelled, hbalanced, inner, hinner⟩ := runs_of_preload hN h
  have hmeans {links : List SourceLink} {body : Text} (hbody : Spells links body) :
      Means root (root ++ body) m ↔ ∃ z, Runs root {} links z ∧ z.meaning = m := by
    have hchain : SpelledChain root links (root ++ body) := .of_spells hspelled.isNameChar_root hbody
    constructor
    · intro h
      obtain ⟨links', z, hlinks, hz, hm⟩ := h
      obtain rfl := hlinks.unique hchain
      exact ⟨z, hz, hm⟩
    · intro h
      obtain ⟨z, hz, hm⟩ := h
      exact ⟨links, z, hchain, hz, hm⟩
  -- both texts share what is in front and what comes behind; the state in between is the same
  rw [hmeans (hP.append ((spells_preloadText hbalanced).append hQ)), hmeans (hP.append (hN.append hQ))]
  refine exists_congr fun z => and_congr_left fun _ => ?_
  rw [runs_append, runs_append]
  refine exists_congr fun a => and_congr_right fun ha => ?_
  obtain ⟨hwritten, hpreloaded⟩ := hspelled.inlined hinner hn a.meaning
  rw [ha.passing hp, hwritten.append_iff, hpreloaded.append_iff]

/-! ## On compilations -/

theorem takeIcons_of_not_occurs {escapes : List IconEscape} {t : Text}
    (h : ∀ escape ∈ escapes, Text.occursIn escape.marker t = false) : takeIcons escapes t = (t, []) := by
  induction escapes with
  | nil => rfl
  | cons escape rest ih =>
    unfold takeIcons
    rw [if_neg (by simp [h escape List.mem_cons_self]), ih fun e he => h e (List.mem_cons_of_mem _ he)]

/-- a text without icon markers compiles to what its meaning resolves to, under any numbering of the arguments -/
theorem compile_ok_iff {settings : Settings} {t : Text}
    (hicons : ∀ escape ∈ settings.iconEscapes, Text.occursIn escape.marker t = false)
    (hlimit : t.length ≤ Text.indexLimit) (c : Compiled) :
    (compile settings t).result = .ok c ↔ ∃ m arguments o, Means settings.root t m ∧
      Outcome.BoundBy arguments o (Meaning.finish m) ∧ (resolve settings.vocabulary arguments o []).result = .ok c := by
  have hcases := compile_cases settings t
  rw [takeIcons_of_not_occurs hicons] at hcases
  constructor
  · intro h
    rcases hcases with ⟨arguments, fault, _, hresult⟩ | ⟨arguments, o, m, _, hm, ho, hcompile⟩
    · rw [hresult] at h
      cases h
    · rw [hcompile] at h
      exact ⟨m, arguments, o.finish, hm, ho, h⟩
  · intro h
    obtain ⟨m, arguments, o, hm, ho, h⟩ := h
    obtain ⟨arguments', o', hrun, _⟩ := (Interpreter.preload_means_iff hlimit m).1 hm
    rcases hcases with ⟨arguments'', fault, hfault, _⟩ | ⟨arguments'', o'', m', _, hm', ho', hcompile⟩
    · rw [hrun] at hfault
      cases hfault
    · obtain rfl := hm.unique hm'
      rw [hcompile, ho'.resolve_eq ho]
      exact h

/-- **Preloading is inlining.** A chain that preloads another compiles exactly when the chain with the links of the
other written out in its place does, and then to the same classes, styles and notices. The chain in front and the
preloaded one switch no mode on for good, the preloaded one runs alone, and no icon is taken out of either text; the text
has a length that fits an index. -/
theorem compile_inlined (settings : Settings) {P N Q : Text} {p n q : List SourceLink} (hP : Spells p P)
    (hN : Spells n N) (hQ : Spells q Q) (hp : Passing p) (hn : Passing n) {arguments : List Argument} {o : Outcome}
    (halone : Interpreter.preload settings.root (settings.root ++ N) [] = (arguments, .ok o))
    (hicons : ∀ escape ∈ settings.iconEscapes,
      Text.occursIn escape.marker (settings.root ++ (P ++ (preloadText (settings.root ++ N) ++ Q))) = false ∧
        Text.occursIn escape.marker (settings.root ++ (P ++ (N ++ Q))) = false)
    (hlimit : (settings.root ++ (P ++ (preloadText (settings.root ++ N) ++ Q))).length ≤ Text.indexLimit) :
    (compile settings (settings.root ++ (P ++ (preloadText (settings.root ++ N) ++ Q)))).result.toOption =
      (compile settings (settings.root ++ (P ++ (N ++ Q)))).result.toOption := by
  have hshorter : (settings.root ++ (P ++ (N ++ Q))).length ≤ Text.indexLimit := by
    have := length_le_preloadText (settings.root ++ N)
    simp only [List.length_append] at this hlimit ⊢
    omega
  have hok (c : Compiled) :
      (compile settings (settings.root ++ (P ++ (preloadText (settings.root ++ N) ++ Q)))).result = .ok c ↔
        (compile settings (settings.root ++ (P ++ (N ++ Q)))).result = .ok c := by
    rw [compile_ok_iff (fun e he => (hicons e he).1) hlimit, compile_ok_iff (fun e he => (hicons e he).2) hshorter]
    exact exists_congr fun m => by simp only [means_inlined_iff hP hN hQ hp hn halone m]
  generalize (compile settings (settings.root ++ (P ++ (preloadText (settings.root ++ N) ++ Q)))).result = a at hok
  generalize (compile settings (settings.root ++ (P ++ (N ++ Q)))).result = b at hok
  cases a with
  | ok c => rw [(hok c).1 rfl]
  | error e =>
    cases b with
    | ok c => cases (hok c).2 rfl
    | error e' => rfl

/-- a preloaded chain that itself preloads, between gated links -/
theorem compile_inlined_nested :
    (compile .standard "SS.bold(a).preload(SS.red(b).preload(SS.italic)).x(c)".toList).result.toOption =
      (compile .standard "SS.bold(a).red(b).preload(SS.italic).x(c)".toList).result.toOption := by
  have plain (t : Text) (h : t.all isNameChar = true) : Balanced t :=
    balanced_of_plain fun c hc => Or.inr (List.all_eq_true.1 h c hc)
  have hitalic : Spells [.access "italic".toList] ".italic".toList :=
    Spells.nil.cons_flush (.access_flush (by decide) (List.all_eq_true.1 (by decide)))
  have hinner : Balanced "SS.italic".toList := (plain "SS".toList (by decide)).append hitalic.balanced
  have hP : Spells [.access "bold".toList, .call "a".toList] ".bold(a)".toList :=
    Spells.nil.named_call (by decide) (plain _ (by decide))
  have hN : Spells ([.access "red".toList, .call "b".toList] ++ preloadLinks "SS.italic".toList)
      (".red(b)".toList ++ preloadText "SS.italic".toList) :=
    (spells_preloadText hinner).named_call (by decide) (plain _ (by decide))
  have hQ : Spells [.access "x".toList, .call "c".toList] ".x(c)".toList :=
    Spells.nil.named_call (by decide) (plain _ (by decide))
  have hp : Passing [.access "bold".toList, .call "a".toList] := ⟨by decide, by decide, rfl⟩
  have hn : Passing ([.access "red".toList, .call "b".toList] ++ preloadLinks "SS.italic".toList) :=
    ⟨by decide, by decide, rfl⟩
  have hpreload : "SS.bold(a).preload(SS.red(b).preload(SS.italic)).x(c)".toList =
      "SS".toList ++ (".bold(a)".toList ++ (preloadText ("SS".toList ++ (".red(b)".toList ++
        preloadText "SS.italic".toList)) ++ ".x(c)".toList)) := rfl
  have hwritten : "SS.bold(a).red(b).preload(SS.italic).x(c)".toList =
      "SS".toList ++ (".bold(a)".toList ++ ((".red(b)".toList ++ preloadText "SS.italic".toList) ++
        ".x(c)".toList)) := rfl
  rw [hpreload, hwritten]
  refine compile_inlined .standard hP hN hQ hp hn rfl ?_ (by decide)
  simp only [Settings.standard, List.mem_cons, List.not_mem_nil, or_false, forall_eq_or_imp, forall_eq]
  exact ⟨⟨rfl, rfl⟩, rfl, rfl⟩

end TerseStyle.Chain

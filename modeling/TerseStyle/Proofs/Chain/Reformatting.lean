/-
Compiling a chain in another layout. Blanks between the links of a chain, and around arguments, change nothing of what it
compiles to, but for one thing. A string is a constant only if its quotes stand right inside of the parentheses; with blanks
around it, it is an expression. A candidate that the vocabulary has no class for takes the one into its class and the other
into the inline style.

Results:
- `BoundCandidate.Alike.resolve_eq`: a candidate becomes the same where its argument is read in the same way.
- `length_classTemplate`, `resolveAll_room`: a constant that is read as an expression leaves the class template shorter.
- `readAlike_of_sameReading`: texts are read alike if no string has blanks around it in one of them only.
- `compile_tight`: added blanks let no text compile that does not compile without them.
- `compile_relaid`: texts that are read alike compile alike, and where blanks are only added, no others do.
-/
import TerseStyle.Proofs.Chain.Inlining
import TerseStyle.Proofs.Chain.Layout
import TerseStyle.Proofs.Chain.Template

namespace TerseStyle.Chain

variable {R : Text → Text → Prop} {p q : Text}

/-! ## What the arguments are taken for -/

/-- a candidate without a class of its own is under a constant with both arguments or with neither -/
def BoundCandidate.SameUse (v : Vocabulary) (b b' : BoundCandidate) : Prop :=
  v.classOf? b.key = none → b.gate.map (·.kind) = b'.gate.map (·.kind)

/-- wherever two texts have a candidate without a class of its own, both have it under a constant, or neither has -/
def ReadAlike (settings : Settings) (t t' : Text) : Prop :=
  ∀ m m', Means settings.root t m → Means settings.root t' m' →
    List.Forall₂ (BoundCandidate.SameUse settings.vocabulary) m.candidates m'.candidates

theorem BoundCandidate.Alike.sameUse {b b' : BoundCandidate} (h : b.Alike SameReading b') (v : Vocabulary) :
    b.SameUse v b' := by
  intro _
  obtain ⟨_, _, hgate⟩ := h
  generalize b.gate = g, b'.gate = g' at hgate
  cases hgate with
  | always => rfl
  | argument hread => exact congrArg some hread.kind

/-- texts are read alike if each argument of the one is read in the same way as that of the other -/
theorem readAlike_of_sameReading {settings : Settings} {t t' : Text} (h : SameChain SameReading settings.root t t') :
    ReadAlike settings t t' := by
  intro m m' hm hm'
  obtain ⟨n, hn, halike⟩ := hm.relaid relatesBlanks_sameReading h
  obtain rfl := hm'.unique hn
  exact halike.candidates.imp fun _ _ hb => hb.sameUse settings.vocabulary

theorem BoundCandidate.SameUse.symm {v : Vocabulary} {b b' : BoundCandidate} (h : b.SameUse v b')
    (hkey : b.key = b'.key) : b'.SameUse v b := by
  intro hnone
  exact (h (hkey ▸ hnone)).symm

/-! ## One candidate -/

/-- what a candidate becomes under the argument that it is bound to -/
def BoundCandidate.resolve (v : Vocabulary) (b : BoundCandidate) : Except CompileError Piece :=
  match b.gate with
  | none => Candidate.resolve v [] ⟨b.key, b.responsive, .always⟩
  | some a => Candidate.resolve v [a] ⟨b.key, b.responsive, .argument 0⟩

/-- a bound candidate becomes what its argument makes of it, at whatever index it is found -/
theorem Candidate.BoundBy.resolve_bound {arguments : List Argument} {c : Candidate} {b : BoundCandidate}
    (h : c.BoundBy arguments b) (v : Vocabulary) : c.resolve v arguments = b.resolve v := by
  obtain ⟨name, mode, gate⟩ := b
  cases gate with
  | none => exact h.resolve_eq ⟨rfl, rfl, .always⟩ v
  | some a => exact h.resolve_eq ⟨rfl, rfl, .argument rfl⟩ v

section

variable {v : Vocabulary} {b b' : BoundCandidate}

theorem BoundCandidate.resolve_of_class {key className : Text} (hclass : v.classOf? key = some className)
    (responsive : Bool) (a : Argument) : BoundCandidate.resolve v ⟨key, responsive, some a⟩ =
      .ok (.fragment (Candidate.gated (Text.trim a.raw)
        (Candidate.variantPrefix ⟨key, responsive, .argument 0⟩ ++ className)) none) := by
  unfold BoundCandidate.resolve Candidate.resolve
  simp only [hclass]
  rfl

theorem BoundCandidate.resolve_of_none {key : Text} (hnone : v.classOf? key = none) (responsive : Bool)
    (a : Argument) : BoundCandidate.resolve v ⟨key, responsive, some a⟩ =
      Candidate.arbitraryValue v ⟨key, responsive, .argument 0⟩ a := by
  unfold BoundCandidate.resolve Candidate.resolve
  simp only [hnone]
  rfl

theorem SameArgument.raw_eq (h : SameArgument p q) :
    Text.trim (Argument.classify p).raw = Text.trim (Argument.classify q).raw := by
  rw [raw_classify, raw_classify]
  exact h

theorem SameReading.arbitraryValue_eq (h : SameReading p q) (v : Vocabulary) (c : Candidate) :
    c.arbitraryValue v (.classify p) = c.arbitraryValue v (.classify q) := by
  unfold Candidate.arbitraryValue
  rw [h.text.raw_eq, h.kind]
  cases hkind : (Argument.classify q).kind with
  | «variable» => rfl
  | constant => rw [h.text.value_eq (h.kind.trans hkind) hkind]

/-- **A candidate becomes the same** whatever the blanks around its argument, if it has a class of its own or the argument
is read in the same way. -/
theorem BoundCandidate.Alike.resolve_eq (h : b.Alike SameArgument b') (huse : b.SameUse v b') :
    b.resolve v = b'.resolve v := by
  obtain ⟨key, responsive, gate⟩ := b
  obtain ⟨key', responsive', gate'⟩ := b'
  obtain ⟨rfl, rfl, halike⟩ := h
  cases halike with
  | always => rfl
  | @argument p q hpq =>
    cases hclass : v.classOf? key with
    | some className =>
      rw [BoundCandidate.resolve_of_class hclass, BoundCandidate.resolve_of_class hclass, hpq.raw_eq]
    | none =>
      have hread : SameReading p q := ⟨hpq, Option.some.inj (huse hclass)⟩
      rw [BoundCandidate.resolve_of_none hclass, BoundCandidate.resolve_of_none hclass, hread.arbitraryValue_eq]

/-- a constant becomes a fragment, an expression never does -/
theorem arbitraryValue_fragment_iff {c : Candidate} {a : Argument} {piece : Piece}
    (h : c.arbitraryValue v a = .ok piece) : (∃ f, piece.fragment? = some f) ↔ a.kind = .constant := by
  unfold Candidate.arbitraryValue at h
  cases hkind : a.kind with
  | «variable» =>
    simp only [hkind] at h
    split at h <;> cases h
    simp [Piece.fragment?]
  | constant =>
    simp only [hkind] at h
    split at h <;> cases h <;> simp [Piece.fragment?]

theorem arbitraryValue_constant {c : Candidate} {a : Argument} (h : a.kind = .constant) :
    ∃ piece, c.arbitraryValue v a = .ok piece := by
  unfold Candidate.arbitraryValue
  simp only [h]
  split <;> exact ⟨_, rfl⟩

/-- where added blanks change the use of a candidate, it has no class of its own, and its constant becomes an expression -/
theorem BoundCandidate.Alike.of_not_sameUse (h : b.Alike Padded b') (huse : ¬ b.SameUse v b') :
    ∃ key responsive p q, b = ⟨key, responsive, some (.classify p)⟩ ∧ b' = ⟨key, responsive, some (.classify q)⟩ ∧
      v.classOf? key = none ∧ (Argument.classify p).kind = .constant ∧ (Argument.classify q).kind = .variable := by
  obtain ⟨hnone, hkind⟩ := Classical.not_imp.1 huse
  obtain ⟨key, responsive, gate⟩ := b
  obtain ⟨key', responsive', gate'⟩ := b'
  obtain ⟨rfl, rfl, halike⟩ := h
  cases halike with
  | always => exact absurd rfl hkind
  | @argument p q hpq =>
    obtain ⟨hp, hq⟩ := hpq.kind_of_ne fun heq => hkind (congrArg some heq)
    exact ⟨key, responsive, p, q, rfl, rfl, hnone, hp, hq⟩

/-- with blanks added around its argument, a candidate becomes the same, or a style property in place of a fragment -/
theorem BoundCandidate.Alike.resolve_padded (h : b.Alike Padded b') {piece piece' : Piece}
    (hpiece : b.resolve v = .ok piece) (hpiece' : b'.resolve v = .ok piece') :
    (b.SameUse v b' ∧ piece = piece') ∨ ((∃ f, piece.fragment? = some f) ∧ piece'.fragment? = none) := by
  by_cases huse : b.SameUse v b'
  · rw [(h.mono Padded.sameArgument).resolve_eq huse, hpiece'] at hpiece
    exact Or.inl ⟨huse, (Except.ok.inj hpiece).symm⟩
  · right
    obtain ⟨key, responsive, p, q, rfl, rfl, hnone, hp, hq⟩ := h.of_not_sameUse huse
    rw [BoundCandidate.resolve_of_none hnone] at hpiece hpiece'
    refine ⟨(arbitraryValue_fragment_iff hpiece).2 hp, ?_⟩
    rw [Option.eq_none_iff_forall_ne_some]
    intro f hf
    have hconstant := (arbitraryValue_fragment_iff hpiece').1 ⟨f, hf⟩
    rw [hq] at hconstant
    cases hconstant

/-- a candidate that does not fail with blanks added around its argument does not fail without them -/
theorem BoundCandidate.Alike.resolve_tight (h : b.Alike Padded b') {piece' : Piece}
    (hpiece' : b'.resolve v = .ok piece') : ∃ piece, b.resolve v = .ok piece := by
  by_cases huse : b.SameUse v b'
  · exact ⟨piece', by rw [(h.mono Padded.sameArgument).resolve_eq huse, hpiece']⟩
  · obtain ⟨key, responsive, p, q, rfl, rfl, hnone, hp, _⟩ := h.of_not_sameUse huse
    rw [BoundCandidate.resolve_of_none hnone]
    exact arbitraryValue_constant hp

end

/-! ## All candidates -/

section

variable {v : Vocabulary} {as bs : List Argument} {cs ds : List Candidate} {ms ns : List BoundCandidate}

theorem resolveAll_relaid (hcs : List.Forall₂ (Candidate.BoundBy as) cs ms)
    (hds : List.Forall₂ (Candidate.BoundBy bs) ds ns) (halike : List.Forall₂ (BoundCandidate.Alike SameArgument) ms ns)
    (huse : List.Forall₂ (BoundCandidate.SameUse v) ms ns) : resolveAll v as cs = resolveAll v bs ds := by
  induction halike generalizing cs ds with
  | nil =>
    cases hcs
    cases hds
    rfl
  | cons hb _ ih =>
    cases hcs with
    | cons hc hcs =>
      cases hds with
      | cons hd hds =>
        cases huse with
        | cons hfirst hrest =>
          unfold resolveAll
          rw [hc.resolve_bound, hd.resolve_bound, hb.resolve_eq hfirst, ih hcs hds hrest]

/-- candidates that do not fail with blanks added around their arguments do not fail without them -/
theorem resolveAll_tight (hcs : List.Forall₂ (Candidate.BoundBy as) cs ms)
    (hds : List.Forall₂ (Candidate.BoundBy bs) ds ns) (halike : List.Forall₂ (BoundCandidate.Alike Padded) ms ns)
    {pieces' : List Piece} (hall' : resolveAll v bs ds = (pieces', none)) :
    ∃ pieces, resolveAll v as cs = (pieces, none) := by
  induction halike generalizing cs ds pieces' with
  | nil =>
    cases hcs
    exact ⟨[], rfl⟩
  | cons hb _ ih =>
    cases hcs with
    | cons hc hcs =>
      cases hds with
      | cons hd hds =>
        obtain ⟨piece', more', hpiece', hrest', rfl⟩ := resolveAll_cons_ok hall'
        rw [hd.resolve_bound] at hpiece'
        obtain ⟨piece, hpiece⟩ := hb.resolve_tight hpiece'
        obtain ⟨more, hrest⟩ := ih hcs hds hrest'
        refine ⟨piece :: more, ?_⟩
        rw [resolveAll, hc.resolve_bound, hpiece, hrest]

/-- the room that fragments take in a class template, each with the space or quote behind it -/
def room : List Text → Nat
  | [] => 0
  | f :: fragments => f.length + 1 + room fragments

theorem length_intercalate (f : Text) (fragments : List Text) :
    ([' '].intercalate (f :: fragments)).length + 1 = room (f :: fragments) := by
  induction fragments generalizing f with
  | nil =>
    rw [List.intercalate_singleton]
    rfl
  | cons g fragments ih =>
    rw [List.intercalate_cons_cons, List.length_append, List.length_append, Nat.add_assoc, ih g, room]
    rfl

/-- a class template is as long as its fragments need -/
theorem length_classTemplate {fragments : List Text} (hne : fragments ≠ []) :
    (classTemplate fragments []).length = room fragments + 1 := by
  obtain ⟨f, rest, rfl⟩ := List.exists_cons_of_ne_nil hne
  rw [← length_intercalate, classTemplate]
  simp

/-- **Blanks around arguments only take fragments out of the class template**, and none exactly when every candidate is
used in the same way. -/
theorem resolveAll_room (hcs : List.Forall₂ (Candidate.BoundBy as) cs ms)
    (hds : List.Forall₂ (Candidate.BoundBy bs) ds ns) (halike : List.Forall₂ (BoundCandidate.Alike Padded) ms ns)
    {pieces pieces' : List Piece} (hall : resolveAll v as cs = (pieces, none))
    (hall' : resolveAll v bs ds = (pieces', none)) :
    room (pieces'.filterMap Piece.fragment?) ≤ room (pieces.filterMap Piece.fragment?) ∧
      (room (pieces'.filterMap Piece.fragment?) = room (pieces.filterMap Piece.fragment?) →
        List.Forall₂ (BoundCandidate.SameUse v) ms ns) := by
  induction halike generalizing cs ds pieces pieces' with
  | nil =>
    cases hcs
    cases hds
    cases hall
    cases hall'
    exact ⟨Nat.le_refl _, fun _ => .nil⟩
  | cons hb _ ih =>
    cases hcs with
    | cons hc hcs =>
      cases hds with
      | cons hd hds =>
        obtain ⟨piece, more, hpiece, hrest, rfl⟩ := resolveAll_cons_ok hall
        obtain ⟨piece', more', hpiece', hrest', rfl⟩ := resolveAll_cons_ok hall'
        obtain ⟨hle, heq⟩ := ih hcs hds hrest hrest'
        rw [hc.resolve_bound] at hpiece
        rw [hd.resolve_bound] at hpiece'
        rcases hb.resolve_padded hpiece hpiece' with ⟨huse, rfl⟩ | ⟨⟨f, hf⟩, hnone⟩
        · cases hf : piece.fragment? with
          | none =>
            rw [List.filterMap_cons_none hf, List.filterMap_cons_none hf]
            exact ⟨hle, fun h => .cons huse (heq h)⟩
          | some f =>
            rw [List.filterMap_cons_some hf, List.filterMap_cons_some hf, room, room]
            exact ⟨Nat.add_le_add_left hle _, fun h => .cons huse (heq (Nat.add_left_cancel h))⟩
        · -- a fragment is lost, and nothing makes up for it
          rw [List.filterMap_cons_some hf, List.filterMap_cons_none hnone, room]
          exact ⟨by omega, fun h => absurd h (by omega)⟩

end

/-! ## On compilations -/

theorem Meaning.Alike.finish {m m' : Meaning} (h : m.Alike R m') : m.finish.Alike R m'.finish :=
  ⟨.cons ⟨rfl, rfl, .always⟩ h.candidates, h.declarations⟩

/-- the implicit class is never under an argument -/
theorem sameUse_finish {v : Vocabulary} {m m' : Meaning} :
    List.Forall₂ (BoundCandidate.SameUse v) m.finish.candidates m'.finish.candidates ↔
      List.Forall₂ (BoundCandidate.SameUse v) m.candidates m'.candidates := by
  unfold Meaning.finish
  rw [List.forall₂_cons]
  exact and_iff_right fun _ => rfl

theorem Outcome.BoundBy.resolve_relaid {v : Vocabulary} {as bs : List Argument} {o o' : Outcome} {m m' : Meaning}
    (ho : o.BoundBy as m) (ho' : o'.BoundBy bs m') (halike : m.Alike SameArgument m')
    (huse : List.Forall₂ (BoundCandidate.SameUse v) m.candidates m'.candidates) (icons : List Text) :
    resolve v as o icons = resolve v bs o' icons := by
  unfold resolve
  rw [resolveAll_relaid ho.candidates ho'.candidates halike.candidates huse, ho.declarations, halike.declarations,
    ho'.declarations]

/-- a candidate that is always there becomes a fragment -/
theorem BoundCandidate.resolve_always (v : Vocabulary) (key : Text) (responsive : Bool) :
    ∃ f notice, BoundCandidate.resolve v ⟨key, responsive, none⟩ = .ok (.fragment f notice) := by
  unfold BoundCandidate.resolve Candidate.resolve
  cases v.classOf? key with
  | some className => exact ⟨_, _, rfl⟩
  | none =>
    simp only
    split <;> exact ⟨_, _, rfl⟩

/-- a class template holds the implicit class at least -/
theorem Outcome.BoundBy.fragments_ne_nil {v : Vocabulary} {arguments : List Argument} {o : Outcome} {m : Meaning}
    (h : o.BoundBy arguments m.finish) {pieces : List Piece} (hall : resolveAll v arguments o.candidates = (pieces, none)) :
    pieces.filterMap Piece.fragment? ≠ [] := by
  obtain ⟨candidates, declarations⟩ := o
  obtain ⟨hcandidates, _⟩ := h
  cases hcandidates with
  | cons hc _ =>
    obtain ⟨piece, more, hpiece, _, rfl⟩ := resolveAll_cons_ok hall
    obtain ⟨f, notice, hf⟩ := BoundCandidate.resolve_always v implicitKey false
    rw [hc.resolve_bound, hf] at hpiece
    cases hpiece
    exact List.cons_ne_nil f _

theorem sameUse_symm {v : Vocabulary} {ms ns : List BoundCandidate} (halike : List.Forall₂ (BoundCandidate.Alike R) ms ns)
    (huse : List.Forall₂ (BoundCandidate.SameUse v) ms ns) : List.Forall₂ (BoundCandidate.SameUse v) ns ms := by
  induction halike with
  | nil => exact .nil
  | cons hb _ ih =>
    cases huse with
    | cons hfirst hrest => exact .cons (hfirst.symm hb.key) (ih hrest)

section

variable {settings : Settings} {t t' : Text}

theorem ReadAlike.symm (hsame : SameChain SameArgument settings.root t t') (h : ReadAlike settings t t') :
    ReadAlike settings t' t := by
  intro m' m hm' hm
  obtain ⟨n, hn, halike⟩ := hm.relaid relatesBlanks_sameArgument hsame
  obtain rfl := hm'.unique hn
  exact sameUse_symm halike.candidates (h m m' hm hm')

/-- a text that is read like one that compiles compiles to the same -/
theorem compile_ok_of_relaid (hsame : SameChain SameArgument settings.root t t') (hread : ReadAlike settings t t')
    (hicons : ∀ escape ∈ settings.iconEscapes,
      Text.occursIn escape.marker t = false ∧ Text.occursIn escape.marker t' = false)
    (hlimit : t.length ≤ Text.indexLimit ∧ t'.length ≤ Text.indexLimit) {c : Compiled}
    (h : (compile settings t).result = .ok c) : (compile settings t').result = .ok c := by
  obtain ⟨m, arguments, o, hm, ho, hresolve⟩ := (compile_ok_iff (fun e he => (hicons e he).1) hlimit.1 c).1 h
  obtain ⟨m', hm', halike⟩ := hm.relaid relatesBlanks_sameArgument hsame
  obtain ⟨arguments', o', _, ho'⟩ := (Interpreter.preload_means_iff hlimit.2 m').1 hm'
  refine (compile_ok_iff (fun e he => (hicons e he).2) hlimit.2 c).2 ⟨m', arguments', o'.finish, hm', ho'.finish, ?_⟩
  rw [← ho.resolve_relaid ho'.finish halike.finish (sameUse_finish.2 (hread m m' hm hm'))]
  exact hresolve

/-- a text with blanks added to its arguments that compiles to the same is read alike -/
theorem readAlike_of_compile (hsame : SameChain Padded settings.root t t')
    (hicons : ∀ escape ∈ settings.iconEscapes,
      Text.occursIn escape.marker t = false ∧ Text.occursIn escape.marker t' = false)
    (hlimit : t.length ≤ Text.indexLimit ∧ t'.length ≤ Text.indexLimit) {c : Compiled}
    (h : (compile settings t).result = .ok c) (h' : (compile settings t').result = .ok c) :
    ReadAlike settings t t' := by
  obtain ⟨m, arguments, o, hm, ho, hresolve⟩ := (compile_ok_iff (fun e he => (hicons e he).1) hlimit.1 c).1 h
  obtain ⟨m', arguments', o', hm', ho', hresolve'⟩ := (compile_ok_iff (fun e he => (hicons e he).2) hlimit.2 c).1 h'
  obtain ⟨n, hn, halike⟩ := hm.relaid relatesBlanks_padded hsame
  obtain rfl := hm'.unique hn
  obtain ⟨pieces, hall, htemplate⟩ := resolve_ok hresolve
  obtain ⟨pieces', hall', htemplate'⟩ := resolve_ok hresolve'
  -- one class template has one length, and so no fragment was lost
  have hroom : room (pieces'.filterMap Piece.fragment?) + 1 = room (pieces.filterMap Piece.fragment?) + 1 :=
    calc room (pieces'.filterMap Piece.fragment?) + 1
        = (classTemplate (pieces'.filterMap Piece.fragment?) []).length :=
          (length_classTemplate (ho'.fragments_ne_nil hall')).symm
      _ = c.classTemplate.length := congrArg List.length htemplate'.symm
      _ = (classTemplate (pieces.filterMap Piece.fragment?) []).length := congrArg List.length htemplate
      _ = room (pieces.filterMap Piece.fragment?) + 1 := length_classTemplate (ho.fragments_ne_nil hall)
  obtain ⟨_, huse⟩ := resolveAll_room ho.candidates ho'.candidates halike.finish.candidates hall hall'
  intro k k' hk hk'
  obtain rfl := hm.unique hk
  obtain rfl := hm'.unique hk'
  exact sameUse_finish.1 (huse (Nat.add_right_cancel hroom))

/-- a text that compiles with blanks added to its arguments compiles without them -/
theorem compile_tight (hsame : SameChain Padded settings.root t t')
    (hicons : ∀ escape ∈ settings.iconEscapes,
      Text.occursIn escape.marker t = false ∧ Text.occursIn escape.marker t' = false)
    (hlimit : t.length ≤ Text.indexLimit ∧ t'.length ≤ Text.indexLimit) {c' : Compiled}
    (h' : (compile settings t').result = .ok c') : ∃ c, (compile settings t).result = .ok c := by
  obtain ⟨m', arguments', o', hm', ho', hresolve'⟩ := (compile_ok_iff (fun e he => (hicons e he).2) hlimit.2 c').1 h'
  obtain ⟨m, hm, _⟩ := hm'.relaid relatesBlanks_sameArgument (hsame.mono Padded.sameArgument).symm
  obtain ⟨n, hn, halike⟩ := hm.relaid relatesBlanks_padded hsame
  obtain rfl := hm'.unique hn
  obtain ⟨arguments, o, _, ho⟩ := (Interpreter.preload_means_iff hlimit.1 m).1 hm
  obtain ⟨pieces', hall', _⟩ := resolve_ok hresolve'
  obtain ⟨pieces, hall⟩ := resolveAll_tight ho.finish.candidates ho'.candidates halike.finish.candidates hall'
  obtain ⟨c, hc⟩ : ∃ c, (resolve settings.vocabulary arguments o.finish []).result = .ok c := by
    unfold resolve
    rw [hall]
    exact ⟨_, rfl⟩
  exact ⟨c, (compile_ok_iff (fun e he => (hicons e he).1) hlimit.1 c).2 ⟨m, arguments, o.finish, hm, ho.finish, hc⟩⟩

theorem toOption_eq_some {ε α : Type} {r : Except ε α} {a : α} : r.toOption = some a ↔ r = .ok a := by
  cases r <;> simp [Except.toOption]

/-- **Layout invariance, but for strings.** Take two texts of a chain that differ in blanks only: around the root, the dots,
the names and the groups, and right inside of the parentheses of calls other than those of literal styles, at any depth of
preloading; no icon is taken out of them, and their lengths fit an index. If they are read alike, one compiles when the
other does, and to the same classes, styles and notices. If blanks are only added, the other text compiles to the same in no
other case, and it compiles only if the first one does: a string that the blanks turn into an expression always shows,
except under a candidate with a class of its own. -/
theorem compile_relaid (settings : Settings) {t t' : Text}
    (hicons : ∀ escape ∈ settings.iconEscapes,
      Text.occursIn escape.marker t = false ∧ Text.occursIn escape.marker t' = false)
    (hlimit : t.length ≤ Text.indexLimit ∧ t'.length ≤ Text.indexLimit) :
    (SameChain SameArgument settings.root t t' → ReadAlike settings t t' →
        (compile settings t).result.toOption = (compile settings t').result.toOption) ∧
      (SameChain Padded settings.root t t' → ∀ c, (compile settings t).result = .ok c →
        ((compile settings t').result = .ok c ↔ ReadAlike settings t t')) ∧
      (SameChain Padded settings.root t t' → ∀ c', (compile settings t').result = .ok c' →
        ∃ c, (compile settings t).result = .ok c) := by
  have hicons' : ∀ escape ∈ settings.iconEscapes,
      Text.occursIn escape.marker t' = false ∧ Text.occursIn escape.marker t = false :=
    fun e he => (hicons e he).symm
  refine ⟨fun hsame hread => ?_, fun hpadded c h => ?_, fun hpadded c' h' => compile_tight hpadded hicons hlimit h'⟩
  · apply Option.ext
    intro c
    rw [toOption_eq_some, toOption_eq_some]
    exact ⟨compile_ok_of_relaid hsame hread hicons hlimit,
      compile_ok_of_relaid hsame.symm (hread.symm hsame) hicons' hlimit.symm⟩
  · have hsame := hpadded.mono Padded.sameArgument
    exact ⟨readAlike_of_compile hpadded hicons hlimit h, fun hread => compile_ok_of_relaid hsame hread hicons hlimit h⟩

end

/-- one property with a prefix -/
def widthSettings : Settings :=
  { Settings.standard with vocabulary := ⟨.empty, .ofList [("width".toList, "w".toList)]⟩ }

def tightChain : Text := "SS.width(x).preload(SS.width('3px'))".toList

/-- the same chain over several lines, with the string as it was -/
def looseChain : Text := " SS\n .width( x )\n .preload(\n SS . width ('3px') ) ".toList

theorem sameChain_loose : SameChain SameReading widthSettings.root tightChain looseChain := by
  refine ⟨[.access "width".toList, .call "x".toList, .access preloadName, .call "SS.width('3px')".toList],
    [.access "width".toList, .call " x ".toList, .access preloadName, .call "\n SS . width ('3px') ".toList],
    spelled_of_read rfl rfl, spelled_of_read rfl rfl, ?_⟩
  have hinner : Relaid SameReading widthSettings.root false false [.access "width".toList, .call "'3px'".toList]
      [.access "width".toList, .call "'3px'".toList] := .refl relatesBlanks_sameReading.refl _ _ _ _
  have htight : SpelledChain widthSettings.root [.access "width".toList, .call "'3px'".toList]
      "SS.width('3px')".toList := spelled_of_read rfl rfl
  have hloose : SpelledChain widthSettings.root [.access "width".toList, .call "'3px'".toList]
      "\n SS . width ('3px') ".toList := spelled_of_read rfl rfl
  exact .access (.argument ⟨rfl, rfl⟩ (.access (.chain htight hloose hinner .done)))

/-- a chain with a string, tight and with blanks around the string -/
def stringChain : Text := "SS.width('3px')".toList

def paddedString : Text := "SS.width( '3px' )".toList

theorem sameChain_padded : SameChain Padded widthSettings.root stringChain paddedString := by
  refine ⟨[.access "width".toList, .call "'3px'".toList], [.access "width".toList, .call " '3px' ".toList],
    spelled_of_read rfl rfl, spelled_of_read rfl rfl, ?_⟩
  exact .access (.argument ⟨[' '], [' '], rfl, rfl, rfl⟩ .done)

/-- a chain over several lines compiles as before; with blanks around it, its string becomes an inline style -/
theorem compile_relaid_string :
    (compile widthSettings tightChain).result.toOption = (compile widthSettings looseChain).result.toOption ∧
      (compile widthSettings stringChain).result = .ok ⟨"`flex w-[3px]`".toList, none, []⟩ ∧
      (compile widthSettings paddedString).result =
        .ok ⟨"`flex`".toList, some "\x7b'width': '3px'\x7d".toList, []⟩ ∧
      ¬ ReadAlike widthSettings stringChain paddedString := by
  have noIcons (t : Text) (h : widthSettings.iconEscapes.all fun e => !Text.occursIn e.marker t) :
      ∀ escape ∈ widthSettings.iconEscapes, Text.occursIn escape.marker t = false := by
    intro escape hmem
    simpa using List.all_eq_true.1 h escape hmem
  have hstring : (compile widthSettings stringChain).result = .ok ⟨"`flex w-[3px]`".toList, none, []⟩ := rfl
  have hpadded : (compile widthSettings paddedString).result =
      .ok ⟨"`flex`".toList, some "\x7b'width': '3px'\x7d".toList, []⟩ := rfl
  obtain ⟨hsame, _⟩ := compile_relaid widthSettings
    (fun e he => ⟨noIcons tightChain rfl e he, noIcons looseChain rfl e he⟩) (by decide)
  obtain ⟨_, hiff, _⟩ := compile_relaid widthSettings
    (fun e he => ⟨noIcons stringChain rfl e he, noIcons paddedString rfl e he⟩) (by decide)
  refine ⟨hsame (sameChain_loose.mono SameReading.text) (readAlike_of_sameReading sameChain_loose), hstring, hpadded, ?_⟩
  intro hread
  have hequal := (hiff sameChain_padded _ hstring).2 hread
  rw [hpadded] at hequal
  exact absurd hequal (by decide)

end TerseStyle.Chain

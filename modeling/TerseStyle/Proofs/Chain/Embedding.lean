/-
The arguments of a chain in the code that it compiles to. An argument is put into the test of a conditional expression,
behind the key of a style property or into a spread; here the code is read back, and each of these places holds the
expression that was written in the call. Keys are checked along the way, since a property has its key in quotes.

Gates and property values lose the blanks at their ends first, spreads do not. A comment that runs to the end of its line
loses that end with them and runs on into the code behind it, so the spacing in gates and property values has to be closed
without blanks; a comma behind an argument is kept by all three and has no place in any of them.

Results:
- `Means.keys`: the keys of a chain are made of the characters of names.
- `Candidate.BoundBy.resolve_style`, `IsMember.written`: what becomes a style is written as a member of an object.
- `compile_embeds`: the class template and the style object are read in one way, with the expressions of the calls.
-/
import TerseStyle.Proofs.Chain.Gating
import TerseStyle.Proofs.Chain.Template
import TerseStyle.Proofs.Script.Escaping
import TerseStyle.Proofs.Script.Expressions

namespace TerseStyle.Chain

open Script

/-! ## Keys -/

/-- the characters of keys: those of names, with hyphens for underscores -/
def isKeyChar (c : Char) : Bool := isNameChar c || c = '-'

/-- candidates with keys that are made of the characters of keys -/
def HaveKeys (cs : List BoundCandidate) : Prop := ∀ b ∈ cs, ∀ c ∈ b.key, isKeyChar c = true

theorem isKeyChar_apart {c : Char} (h : isKeyChar c = true) : c ≠ '\'' ∧ c ≠ '\\' ∧ c ≠ '\n' ∧ c ≠ '\r' := by
  refine ⟨?_, ?_, ?_, ?_⟩ <;>
  · rintro rfl
    exact absurd h (by decide)

theorem isKeyChar_keyOf {name : Text} (hname : ∀ c ∈ name, isNameChar c = true) :
    ∀ c ∈ Interpreter.keyOf name, isKeyChar c = true := by
  intro c hc
  obtain ⟨d, hd, rfl⟩ := List.mem_map.mp hc
  split
  · decide
  · simp [isKeyChar, hname d hd]

theorem Spells.names {links : List SourceLink} {t : Text} (h : Spells links t) :
    ∀ name, .access name ∈ links → ∀ c ∈ name, isNameChar c = true := by
  induction h with
  | nil => simp
  | cons _ hlink _ ih =>
    intro name hname
    rcases List.mem_cons.mp hname with rfl | hname
    · cases hlink with
      | access _ _ hchars => exact hchars
    · exact ih name hname

theorem SpelledChain.names {root t : Text} {links : List SourceLink} (h : SpelledChain root links t) :
    ∀ name, .access name ∈ links → ∀ c ∈ name, isNameChar c = true := by
  obtain ⟨_, _, _, _, _, _, _, _, _, hspells⟩ := h
  exact hspells.names

theorem mem_gateLast {a : Argument} {cs : List BoundCandidate} {b : BoundCandidate}
    (h : b ∈ Progress.gateLast a cs) : ∃ c ∈ cs, b.key = c.key := by
  induction cs with
  | nil => cases h
  | cons c cs ih =>
    cases cs with
    | nil =>
      obtain rfl := List.mem_singleton.mp h
      exact ⟨c, List.mem_cons_self, rfl⟩
    | cons d cs =>
      rcases List.mem_cons.mp h with rfl | h
      · exact ⟨b, List.mem_cons_self, rfl⟩
      · obtain ⟨e, he, hkey⟩ := ih h
        exact ⟨e, List.mem_cons_of_mem c he, hkey⟩

theorem Progress.access_keys {p : Progress} {name : Text} (hname : ∀ c ∈ name, isNameChar c = true)
    (hp : HaveKeys p.candidates) : HaveKeys (p.access name).candidates := by
  unfold access
  split_ifs
  · exact hp
  · exact hp
  · exact hp
  · exact hp
  · intro b hb
    rcases List.mem_append.mp hb with hb | hb
    · exact hp b hb
    · rw [List.mem_singleton.mp hb]
      exact isKeyChar_keyOf hname

theorem Progress.gate_keys {p : Progress} {payload : Text} (hp : HaveKeys p.candidates) :
    HaveKeys (p.gate payload).candidates := by
  unfold gate
  split
  · exact hp
  · intro b hb
    obtain ⟨c, hc, hkey⟩ := mem_gateLast hb
    rw [hkey]
    exact hp c hc

/-- the keys that a run adds are made of the characters of names -/
theorem Runs.keys {root : Text} {p q : Progress} {links : List SourceLink} (h : Runs root p links q)
    (hnames : ∀ name, .access name ∈ links → ∀ c ∈ name, isNameChar c = true) (hp : HaveKeys p.candidates) :
    HaveKeys q.candidates := by
  induction h with
  | done => exact hp
  | access _ _ ih =>
    exact ih (fun name hname => hnames name (List.mem_cons_of_mem _ hname))
      (Progress.access_keys (hnames _ List.mem_cons_self) hp)
  | literal _ _ _ ih => exact ih (fun name hname => hnames name (List.mem_cons_of_mem _ hname)) hp
  | skip _ _ _ _ _ ih => exact ih (fun name hname => hnames name (List.mem_cons_of_mem _ hname)) hp
  | preload _ _ _ _ hspelled _ _ ihInner ih =>
    -- the names of a preloaded chain are spelled in its own text
    have hinner := ihInner hspelled.names fun b hb => by cases hb
    exact ih (fun name hname => hnames name (List.mem_cons_of_mem _ hname)) (List.forall_mem_append.mpr ⟨hp, hinner⟩)
  | gate _ _ _ _ _ ih =>
    exact ih (fun name hname => hnames name (List.mem_cons_of_mem _ hname)) (Progress.gate_keys hp)

/-- a run adds no styles but spreads -/
theorem Runs.spreads {root : Text} {p q : Progress} {links : List SourceLink} (h : Runs root p links q)
    (hp : ∀ d ∈ p.declarations, ∃ e, d = .spread e) : ∀ d ∈ q.declarations, ∃ e, d = .spread e := by
  induction h with
  | done => exact hp
  | @access p _ name _ _ _ ih =>
    refine ih ?_
    unfold Progress.access
    split_ifs <;> exact hp
  | @literal p _ payload _ _ _ _ ih =>
    refine ih ?_
    unfold Progress.literal
    dsimp only
    split
    · exact hp
    · exact List.forall_mem_append.mpr ⟨hp, by simp⟩
  | skip _ _ _ _ _ ih => exact ih hp
  | preload _ _ _ _ _ _ _ ihInner ih =>
    have hinner := ihInner fun d hd => by cases hd
    exact ih (List.forall_mem_append.mpr ⟨hp, hinner⟩)
  | @gate p _ payload _ _ _ _ _ _ ih =>
    refine ih ?_
    unfold Progress.gate
    split <;> exact hp

/-- **The keys of a chain** are made of the characters of names, with hyphens for underscores. -/
theorem Means.keys {root t : Text} {m : Meaning} (h : Means root t m) : HaveKeys m.finish.candidates := by
  obtain ⟨links, p, hspelled, hruns, rfl⟩ := h
  have himplicit : ∀ c ∈ implicitKey, isKeyChar c = true := List.all_eq_true.mp (by decide)
  have hkeys := hruns.keys hspelled.names fun b hb => by cases hb
  exact List.forall_mem_cons.mpr ⟨himplicit, hkeys⟩

theorem oneLine_key {key : Text} (h : ∀ c ∈ key, isKeyChar c = true) : OneLine key := by
  intro c hc
  obtain ⟨_, _, hline, hreturn⟩ := isKeyChar_apart (h c hc)
  exact ⟨hline, hreturn⟩

/-- a key in quotes stands for itself -/
theorem readsString_key {key : Text} (h : ∀ c ∈ key, isKeyChar c = true) :
    ReadsString '\'' (key ++ ['\'']) (plainParts key) [] := by
  induction key with
  | nil => exact .close
  | cons c key ih =>
    obtain ⟨hquote, hslash, hline, hreturn⟩ := isKeyChar_apart (h c List.mem_cons_self)
    exact .char hquote hslash hline hreturn (ih fun d hd => h d (List.mem_cons_of_mem c hd))

/-! ## What a candidate becomes -/

/-- the prefix of the classes of a candidate -/
def BoundCandidate.variantPrefix (b : BoundCandidate) : Text := if b.responsive then responsivePrefix else []

/-- the parts of a class template that a candidate stands for, with its argument in place -/
def BoundCandidate.parts? (v : Vocabulary) (b : BoundCandidate) : Option (List QuotedPart) :=
  match v.classOf? b.key, b.gate with
  | some className, none => some (plainParts (b.variantPrefix ++ className))
  | some className, some a =>
    some [.interpolation (conditionalClass (Text.trim a.raw) (b.variantPrefix ++ className))]
  | none, none => some (plainParts (b.variantPrefix ++ b.key))
  | none, some a =>
    match a.kind with
    | .variable => none
    | .constant =>
      some (plainParts (b.variantPrefix ++ (v.prefixOf? b.key).getD b.key ++ "-[".toList ++ bracketed a ++ [']']))

/-- the style that a candidate becomes, its value as it was written -/
def BoundCandidate.style? (v : Vocabulary) (b : BoundCandidate) : Option Declaration :=
  match v.classOf? b.key, b.gate with
  | none, some a =>
    match a.kind with
    | .variable => some (.property b.key a.raw)
    | .constant => none
  | _, _ => none

/-- the parts of the class template of a chain -/
def Meaning.templateParts (v : Vocabulary) (m : Meaning) (icons : List Text) : List QuotedPart :=
  [.char ' '].intercalate (m.candidates.filterMap (·.parts? v)) ++ icons.flatMap fun e => [.char ' ', .interpolation e]

/-- the styles of a chain, as they were written -/
def Meaning.styles (v : Vocabulary) (m : Meaning) : List Declaration :=
  m.declarations ++ m.candidates.filterMap (·.style? v)

/-- a style without the blanks around its value -/
def Declaration.trimmed : Declaration → Declaration
  | .property name value => .property name (Text.trim value)
  | .spread expression => .spread expression

variable {X : ExpressionGrammar} {v : Vocabulary} {arguments : List Argument} {c : Candidate} {b : BoundCandidate}

theorem Candidate.BoundBy.parts?_eq (h : c.BoundBy arguments b) : c.parts? v arguments = b.parts? v := by
  obtain ⟨key, responsive, gate⟩ := c
  obtain ⟨name, mode, a⟩ := b
  obtain ⟨rfl, rfl, hgate⟩ := h
  unfold Candidate.parts? BoundCandidate.parts?
  cases hgate with
  | always => cases v.classOf? key <;> rfl
  | argument ha => cases v.classOf? key <;> simp only [ha] <;> rfl

/-- a candidate becomes the style that its argument makes, without the blanks around it -/
theorem Candidate.BoundBy.resolve_style (h : c.BoundBy arguments b) {piece : Piece}
    (hpiece : c.resolve v arguments = .ok piece) : piece.declaration? = (b.style? v).map Declaration.trimmed := by
  obtain ⟨key, responsive, gate⟩ := c
  obtain ⟨name, mode, a⟩ := b
  obtain ⟨rfl, rfl, hgate⟩ := h
  unfold Candidate.resolve at hpiece
  unfold BoundCandidate.style?
  cases hclass : v.classOf? key with
  | some className =>
    cases hgate with
    | always =>
      simp only [hclass] at hpiece ⊢
      cases hpiece
      rfl
    | argument ha =>
      simp only [hclass, gateArgument_eq ha] at hpiece ⊢
      cases hpiece
      rfl
  | none =>
    cases hgate with
    | always =>
      simp only [hclass] at hpiece ⊢
      split at hpiece <;> cases hpiece <;> rfl
    | @argument index a ha =>
      simp only [hclass, gateArgument_eq ha] at hpiece ⊢
      change Candidate.arbitraryValue v _ a = .ok piece at hpiece
      unfold Candidate.arbitraryValue at hpiece
      cases hkind : a.kind with
      | «variable» =>
        simp only [hkind] at hpiece ⊢
        split at hpiece <;> cases hpiece
        rfl
      | constant =>
        simp only [hkind] at hpiece ⊢
        split at hpiece <;> cases hpiece <;> rfl

theorem resolveAll_styles {cs : List Candidate} {bs : List BoundCandidate}
    (h : List.Forall₂ (Candidate.BoundBy arguments) cs bs) {pieces : List Piece}
    (hall : resolveAll v arguments cs = (pieces, none)) :
    pieces.filterMap (·.declaration?) = (bs.filterMap (·.style? v)).map Declaration.trimmed := by
  induction h generalizing pieces with
  | nil =>
    cases hall
    rfl
  | @cons c b cs bs hbound _ ih =>
    obtain ⟨piece, more, hpiece, hrest, rfl⟩ := resolveAll_cons_ok hall
    have hstyle := hbound.resolve_style hpiece
    rw [List.filterMap_cons, List.filterMap_cons, hstyle, ih hrest]
    cases b.style? v <;> rfl

/-! ## Styles as members -/

/-- a style and the member of an object that it is: its value, or what it spreads, is an expression in some spacing -/
inductive IsMember (X : ExpressionGrammar) : Declaration → Member → Prop
  | property {name value e : Text} (he : IsClosed X value e) :
      IsMember X (.property name value) (.property (plainParts name) e)
  | spread {expression e : Text} (he : IsWritten X expression e) : IsMember X (.spread expression) (.spread e)

theorem Means.spreads {root t : Text} {m : Meaning} (h : Means root t m) : ∀ d ∈ m.declarations, ∃ e, d = .spread e := by
  obtain ⟨links, p, _, hruns, rfl⟩ := h
  exact hruns.spreads fun d hd => by cases hd

/-- the styles of a chain have keys for names -/
theorem Means.styles_keys {root t : Text} {m : Meaning} (h : Means root t m) (v : Vocabulary) {name value : Text}
    (hmem : .property name value ∈ m.finish.styles v) : ∀ c ∈ name, isKeyChar c = true := by
  rcases List.mem_append.mp hmem with hmem | hmem
  · obtain ⟨e, he⟩ := h.spreads _ hmem
    cases he
  · obtain ⟨b, hb, hstyle⟩ := List.mem_filterMap.mp hmem
    unfold BoundCandidate.style? at hstyle
    split at hstyle
    · split at hstyle <;> cases hstyle
      exact h.keys b hb
    · cases hstyle

/-- a style is written as the member that it is, with spacing behind it -/
theorem IsMember.written {d : Declaration} {m : Member} (h : IsMember X d m)
    (hkey : ∀ name value, d = .property name value → ∀ c ∈ name, isKeyChar c = true) :
    ∃ t k, d.trimmed.written = t ++ k ∧ ReadsMember X t m ∧ Spacing k := by
  cases h with
  | @property name value e he =>
    have hname := hkey name value rfl
    obtain ⟨lead, trail, heq, hlead, he, htrail⟩ := he.trim.written
    have hspace : Spacing (' ' :: lead) := .gap (by decide) hlead
    refine ⟨_, trail, ?_, .property (readsString_key hname) .nil hspace he, htrail⟩
    rw [Declaration.trimmed, Declaration.written, heq]
    simp
  | @spread expression e he =>
    obtain ⟨lead, trail, rfl, hlead, he, htrail⟩ := he
    refine ⟨_, [], ?_, .spread .nil hlead he htrail, .nil⟩
    rw [Declaration.trimmed, Declaration.written]
    simp

/-! ## Paths -/

/-- the characters of paths: those of names, and dots -/
def isPathChar (c : Char) : Bool := isNameChar c || c = '.'

/-- paths, and what becomes of them in interpolations -/
inductive PathSource : Text → Prop
  | path {e : Text} (hne : e ≠ []) (he : ∀ c ∈ e, isPathChar c = true) : PathSource e
  | conditional {e l k body : Text} {parts : List QuotedPart} (he : PathSource e) (hl : Spacing l) (hk : Spacing k)
      (hbody : ReadsString '\'' (body ++ ['\'']) parts []) :
      PathSource ("(".toList ++ (l ++ (e ++ k)) ++ ")?('".toList ++ body ++ "'):''".toList)

theorem isPathChar_of_isBlank {c : Char} (h : isBlank c = true) : isPathChar c = false := by
  have hdot : c ≠ '.' := by
    rintro rfl
    exact absurd h (by decide)
  simp [isPathChar, isNameChar_of_isBlank h, hdot]

theorem isPathChar_of_isGap {c : Char} (h : isGap c = true) : isPathChar c = false := by
  rcases Bool.or_eq_true_iff.mp h with hbreak | hspace
  · exact isPathChar_of_isBlank (isBlank_of_isLineBreak hbreak)
  · simp only [isSpace, Bool.or_eq_true, Bool.and_eq_true, decide_eq_true_eq] at hspace
    rcases hspace with rfl | hspace
    · decide +kernel
    · exact isPathChar_of_isBlank hspace.1.1

theorem isPathChar_of_closing {c : Char} (h : charKind c = .closing) : isPathChar c = false := by
  unfold charKind at h
  split at h <;> first | decide | cases h

theorem isPathChar_apart {c : Char} (h : isPathChar c = true) : isBlank c = false ∧ isGap c = false ∧ c ≠ '/' := by
  refine ⟨?_, ?_, ?_⟩
  · by_contra hc
    rw [isPathChar_of_isBlank (by simpa using hc)] at h
    cases h
  · by_contra hc
    rw [isPathChar_of_isGap (by simpa using hc)] at h
    cases h
  · rintro rfl
    exact absurd h (by decide)

/-- no path goes on in spacing -/
theorem isPathChar_of_spacing {l t : Text} (hl : Spacing l) (ht : ∀ c ∈ t.head?, isPathChar c = false) :
    ∀ c ∈ (l ++ t).head?, isPathChar c = false := by
  intro c hc
  cases hl with
  | nil => exact ht c hc
  | gap hgap =>
    obtain rfl := Option.some.inj hc
    exact isPathChar_of_isGap hgap
  | line | block =>
    obtain rfl := Option.some.inj hc
    decide

/-- no path goes on in what can stand behind an expression -/
theorem isPathChar_of_stops {s : Text} (hs : Stops s) : ∀ c ∈ s.head?, isPathChar c = false := by
  cases hs with
  | nothing hl =>
    have hnone : ∀ c ∈ ([] : Text).head?, isPathChar c = false := by simp
    have h := isPathChar_of_spacing hl hnone
    rwa [List.append_nil] at h
  | comment hl => exact isPathChar_of_spacing hl (by simp; decide)
  | closing hl hc => exact isPathChar_of_spacing hl (by simpa using isPathChar_of_closing hc)
  | comma hl => exact isPathChar_of_spacing hl (by simp; decide)

/-- a path ends in front of the first character that is none of its own -/
theorem takeWhile_path {e s : Text} (he : ∀ c ∈ e, isPathChar c = true) (hs : ∀ c ∈ s.head?, isPathChar c = false) :
    (e ++ s).takeWhile isPathChar = e := by
  rw [List.takeWhile_append_of_pos he]
  cases s with
  | nil => simp
  | cons c s => simp [hs c rfl]

/-- no path starts with a parenthesis -/
theorem path_ne_paren {e s t : Text} (hne : e ≠ []) (he : ∀ c ∈ e, isPathChar c = true) :
    e ++ s ≠ "(".toList ++ t := by
  intro heq
  obtain ⟨c, e, rfl⟩ := List.exists_cons_of_ne_nil hne
  have hparen : isPathChar c = true := he c List.mem_cons_self
  rw [(List.cons.inj heq).1] at hparen
  exact absurd hparen (by decide)

namespace PathSource

variable {e e' s t : Text}

theorem starts (t : Text) (h : PathSource e) : StartsToken (e ++ t) := by
  cases h with
  | path hne he =>
    obtain ⟨c, e, rfl⟩ := List.exists_cons_of_ne_nil hne
    obtain ⟨_, hgap, hslash⟩ := isPathChar_apart (he c List.mem_cons_self)
    exact startsToken_cons hgap hslash _
  | conditional => exact startsToken_cons (by decide) (by decide) _

theorem edges (h : PathSource e) : (∀ c ∈ e.head?, isBlank c = false) ∧ ∀ c ∈ e.getLast?, isBlank c = false := by
  cases h with
  | path _ he =>
    refine ⟨fun c hc => ?_, fun c hc => ?_⟩
    · exact (isPathChar_apart (he c (List.mem_of_mem_head? hc))).1
    · exact (isPathChar_apart (he c (List.mem_of_mem_getLast? hc))).1
  | conditional =>
    refine ⟨fun c hc => ?_, fun c hc => ?_⟩
    · obtain rfl := Option.some.inj hc
      decide
    · rw [List.getLast?_append] at hc
      obtain rfl := Option.some.inj hc
      decide

theorem ends (h : PathSource e) (h' : PathSource e') (hs : Stops s) (ht : Stops t) (heq : e ++ s = e' ++ t) :
    e = e' := by
  induction h generalizing e' s t with
  | path hne he =>
    cases h' with
    | path _ he' => rw [← takeWhile_path he (isPathChar_of_stops hs), heq, takeWhile_path he' (isPathChar_of_stops ht)]
    | conditional =>
      simp only [List.append_assoc] at heq
      exact absurd heq (path_ne_paren hne he)
  | conditional he hl hk hbody ih =>
    cases h' with
    | path hne he' =>
      simp only [List.append_assoc] at heq
      exact absurd heq.symm (path_ne_paren hne he')
    | conditional he' hl' hk' hbody' =>
      obtain ⟨rfl, rfl, rfl, rfl⟩ := conditional_unique hl hl' hk hk' (fun u => starts u he) (fun u => starts u he')
        (fun _ _ hu hu' => ih he' hu hu') hbody.stringBody hbody'.stringBody heq
      rfl

end PathSource

/-- a grammar in which paths are the only expressions that a call can hold -/
def pathGrammar : ExpressionGrammar where
  Source := PathSource
  edges := PathSource.edges
  starts := PathSource.starts
  ends := PathSource.ends
  conditional := .conditional

/-! ## The whole code -/

/-- how the calls of a chain have to be written: each gate of a class of the vocabulary and each property value is an
expression whose spacing is closed without blanks, each spread is one in any spacing. The vocabulary has one line to an
entry, and the icons can stand in a template. -/
structure WellWritten (X : ExpressionGrammar) (v : Vocabulary) (m : Meaning) (icons : List Text) (members : List Member) :
    Prop where
  classes : ∀ entry ∈ v.classes.entries, OneLine entry.2
  propertyPrefixes : ∀ entry ∈ v.propertyPrefixes.entries, OneLine entry.2
  gates : ∀ b ∈ m.candidates, ∀ a, (v.classOf? b.key).isSome = true → b.gate = some a → ∃ e, IsClosed X a.raw e
  styles : List.Forall₂ (IsMember X) (m.styles v) members
  icons : ∀ e ∈ icons, X.interpolations.Complete e

theorem oneLine_ofVariant (b : BoundCandidate) : OneLine b.variantPrefix := by
  unfold BoundCandidate.variantPrefix
  split <;> decide

/-- a class under an argument is a conditional expression with the expression of the call for its test -/
theorem reads_conditionalClass {raw e className : Text} (he : IsClosed X raw e) (hclass : OneLine className) :
    ReadsConditional X (conditionalClass (Text.trim raw) className) e (plainParts className) := by
  obtain ⟨lead, trail, heq, hlead, he, htrail⟩ := he.trim.written
  rw [conditionalClass, heq]
  exact .intro hlead he htrail (readsString_escaped hclass [])

theorem parts?_eq {cs : List Candidate} {bs : List BoundCandidate}
    (h : List.Forall₂ (Candidate.BoundBy arguments) cs bs) :
    cs.filterMap (·.parts? v arguments) = bs.filterMap (·.parts? v) := by
  induction h with
  | nil => rfl
  | cons hbound _ ih => rw [List.filterMap_cons, List.filterMap_cons, hbound.parts?_eq, ih]

theorem exists_boundBy {cs : List Candidate} {bs : List BoundCandidate}
    (h : List.Forall₂ (Candidate.BoundBy arguments) cs bs) (hc : c ∈ cs) : ∃ b ∈ bs, c.BoundBy arguments b := by
  induction h with
  | nil => cases hc
  | @cons d b cs bs hbound _ ih =>
    rcases List.mem_cons.mp hc with rfl | hc
    · exact ⟨b, List.mem_cons_self, hbound⟩
    · obtain ⟨b', hb', hbound'⟩ := ih hc
      exact ⟨b', List.mem_cons_of_mem b hb', hbound'⟩

/-- the class template of well written calls can be read back -/
theorem WellWritten.readable {o : Outcome} {m : Meaning} {icons : List Text} {members : List Member}
    (h : WellWritten X v m icons members) (hkeys : HaveKeys m.candidates) (ho : o.BoundBy arguments m) :
    Readable X.interpolations v arguments o.candidates icons where
  keys c hc := by
    obtain ⟨b, hb, hbound⟩ := exists_boundBy ho.candidates hc
    rw [hbound.key]
    exact oneLine_key (hkeys b hb)
  classes := h.classes
  propertyPrefixes := h.propertyPrefixes
  gates c hc index a hclass hgate ha := by
    obtain ⟨b, hb, hbound⟩ := exists_boundBy ho.candidates hc
    have hgate' := hbound.gate
    rw [hgate] at hgate'
    rw [hbound.key] at hclass
    generalize hg : b.gate = g at hgate'
    cases hgate' with
    | argument ha' =>
      obtain rfl := Option.some.inj (ha.symm.trans ha')
      exact h.gates b hb a hclass hg
  icons := h.icons

/-- the style object that the styles of a meaning are written as -/
theorem Outcome.BoundBy.styleObject_eq {o : Outcome} {m : Meaning} (ho : o.BoundBy arguments m)
    (hspreads : ∀ d ∈ m.declarations, ∃ e, d = .spread e) {icons : List Text} {compiled : Compiled}
    (h : (resolve v arguments o icons).result = .ok compiled) :
    compiled.styleObject = styleObject? ((m.styles v).map Declaration.trimmed) := by
  have hdeclarations : m.declarations.map Declaration.trimmed = m.declarations := by
    refine (List.map_congr_left ?_).trans (List.map_id _)
    intro d hd
    obtain ⟨e, rfl⟩ := hspreads d hd
    rfl
  unfold resolve at h
  rcases hall : resolveAll v arguments o.candidates with ⟨pieces, error⟩
  simp only [hall] at h
  cases error with
  | some e => cases h
  | none =>
    cases h
    rw [Meaning.styles, List.map_append, hdeclarations, ← resolveAll_styles ho.candidates hall, ho.declarations]

/-- styles with keys for names are written as what they are, each by itself -/
theorem forall₂_written {α : Type} {R : Declaration → α → Prop} {P : Text → α → Prop} {ds : List Declaration}
    {as : List α} (h : List.Forall₂ R ds as)
    (hkeys : ∀ name value, .property name value ∈ ds → ∀ c ∈ name, isKeyChar c = true)
    (hwritten : ∀ d a, R d a → (∀ name value, d = .property name value → ∀ c ∈ name, isKeyChar c = true) →
      P d.trimmed.written a) :
    List.Forall₂ P ((ds.map Declaration.trimmed).map (·.written)) as := by
  induction h with
  | nil => exact .nil
  | @cons d a ds as hfirst _ ih =>
    refine .cons (hwritten d a hfirst ?_) (ih fun name value hmem => hkeys name value (List.mem_cons_of_mem d hmem))
    rintro name value rfl
    exact hkeys name value List.mem_cons_self

/-- styles that are members are written as an object that is read as these members, and as nothing else -/
theorem styleObject_reads {ds : List Declaration} {ms : List Member} (h : List.Forall₂ (IsMember X) ds ms)
    (hkeys : ∀ name value, .property name value ∈ ds → ∀ c ∈ name, isKeyChar c = true) :
    (styleObject? (ds.map Declaration.trimmed) = none ↔ ms = []) ∧
      ∀ code, styleObject? (ds.map Declaration.trimmed) = some code →
        ∃ inner, code = '{' :: inner ∧ ∀ ns rest, ReadsMembers X inner ns rest ↔ ns = ms ∧ rest = [] := by
  cases h with
  | nil => exact ⟨by simp [styleObject?], by simp [styleObject?]⟩
  | @cons d m ds ms hfirst hrest =>
    refine ⟨by simp [styleObject?], ?_⟩
    intro code hcode
    have hreads : ReadsMembers X (", ".toList.intercalate (((d :: ds).map Declaration.trimmed).map (·.written)) ++ ['}'])
        (m :: ms) [] :=
      .intercalate ms (forall₂_written (.cons hfirst hrest) hkeys fun _ _ => IsMember.written)
    refine ⟨_, (Option.some.inj hcode).symm, ?_⟩
    intro ns rest
    constructor
    · intro hother
      exact hother.unique hreads
    · rintro ⟨rfl, rfl⟩
      exact hreads

/-- **Arguments keep their meaning.** Where the calls of a chain are well written and the chain compiles, the class
template is read in one way and up to its end; where a class has a gate, the interpolation there is read in one way too,
as a conditional expression whose test is the expression of the call and which gives the class. The style object, if
there are styles, is read in one way and up to its end, as the properties and spreads of the expressions of the calls. -/
theorem compile_embeds (X : ExpressionGrammar) {settings : Settings} {t : Text} {m : Meaning} {members : List Member}
    {compiled : Compiled} (hm : Means settings.root (takeIcons settings.iconEscapes t).1 m)
    (hwritten : WellWritten X settings.vocabulary m.finish (takeIcons settings.iconEscapes t).2 members)
    (h : (compile settings t).result = .ok compiled) :
    (∃ inner, compiled.classTemplate = '\x60' :: inner ∧ ∀ parts rest, ReadsTemplate X.interpolations inner parts rest ↔
        parts = m.finish.templateParts settings.vocabulary (takeIcons settings.iconEscapes t).2 ∧ rest = []) ∧
      (∀ b ∈ m.finish.candidates, ∀ className a e, settings.vocabulary.classOf? b.key = some className →
        b.gate = some a → IsClosed X a.raw e → ∀ test parts,
          ReadsConditional X (conditionalClass (Text.trim a.raw) (b.variantPrefix ++ className)) test parts ↔
            test = e ∧ parts = plainParts (b.variantPrefix ++ className)) ∧
      (compiled.styleObject = none ↔ members = []) ∧
      ∀ code, compiled.styleObject = some code →
        ∃ inner, code = '{' :: inner ∧ ∀ ms rest, ReadsMembers X inner ms rest ↔ ms = members ∧ rest = [] := by
  rcases compile_cases settings t with ⟨arguments, fault, _, hresult⟩ | ⟨arguments, o, m', _, hm', ho, hcompile⟩
  · rw [hresult] at h
    cases h
  obtain rfl := hm.unique hm'
  rw [hcompile] at h
  have hkeys := hm.keys
  obtain ⟨inner, hinner, hreads⟩ := resolve_reads (hwritten.readable hkeys ho) h
  have hparts := parts?_eq (v := settings.vocabulary) ho.candidates
  rw [templateParts, hparts] at hreads
  obtain ⟨hnone, hsome⟩ := styleObject_reads hwritten.styles fun name value => hm.styles_keys settings.vocabulary
  rw [ho.styleObject_eq hm.spreads h]
  refine ⟨⟨inner, hinner, hreads⟩, ?_, hnone, hsome⟩
  intro b hb className a e hclass _ he test parts
  have hreads := reads_conditionalClass he ((oneLine_ofVariant b).append
    (oneLine_classOf hwritten.classes (oneLine_key (hkeys b hb)) hclass))
  constructor
  · intro hother
    exact hother.unique hreads
  · rintro ⟨rfl, rfl⟩
    exact hreads

/-- one class with an entry of its own -/
def boldSettings : Settings :=
  { Settings.standard with vocabulary := ⟨.ofList [("bold".toList, "font-bold".toList)], .empty⟩ }

/-- a chain with comments and line ends around its arguments, and an icon -/
def commentedChain : Text :=
  "SS.bold(/* why */ on ).width(\n size /* px */).$style(theme.base // all\n)[icon as 'icon']".toList

/-- what the chain means -/
def commentedMeaning : Meaning where
  candidates := [⟨"bold".toList, false, some (.classify "/* why */ on ".toList)⟩,
    ⟨"width".toList, false, some (.classify "\n size /* px */".toList)⟩]
  declarations := [.spread "theme.base // all\n".toList]

theorem takeIcons_commentedChain : takeIcons boldSettings.iconEscapes commentedChain =
    ("SS.bold(/* why */ on ).width(\n size /* px */).$style(theme.base // all\n)".toList, ["icon".toList]) := by
  decide +kernel

theorem means_commentedChain :
    Means boldSettings.root (takeIcons boldSettings.iconEscapes commentedChain).1 commentedMeaning := by
  rw [takeIcons_commentedChain]
  have flat {payload : Text} (h : '(' ∉ payload ∧ ')' ∉ payload) : Balanced payload := balanced_of_flat h.1 h.2
  refine ⟨[.access "bold".toList, .call "/* why */ on ".toList, .access "width".toList,
    .call "\n size /* px */".toList, .access "$style".toList, .call "theme.base // all\n".toList],
    ⟨commentedMeaning.candidates, commentedMeaning.declarations, false, false, false, false⟩,
    .of_spells (List.all_eq_true.mp (by decide)) ?_, ?_, rfl⟩
  · have hstyle := Spells.nil.named_call (by decide : "$style".toList ≠ [] ∧ _)
      (flat (by decide : '(' ∉ "theme.base // all\n".toList ∧ _))
    have hwidth := hstyle.named_call (by decide : "width".toList ≠ [] ∧ _)
      (flat (by decide : '(' ∉ "\n size /* px */".toList ∧ _))
    exact hwidth.named_call (by decide) (flat (by decide))
  · exact .access rfl (.gate rfl rfl rfl (by decide) (.access rfl (.gate rfl rfl rfl (by decide)
      (.access rfl (.literal rfl rfl .done)))))

/-- what the chain compiles to -/
def commentedCode : Compiled where
  classTemplate := "\x60flex $\x7b(/* why */ on)?('font-bold'):''\x7d $\x7bicon\x7d\x60".toList
  styleObject := some "\x7b...(theme.base // all\n), 'width': size /* px */\x7d".toList
  notices := []

/-- comments and line ends around a gate, a value and a spread stay outside of their expressions -/
theorem compile_embeds_commented :
    (compile boldSettings commentedChain).result = .ok commentedCode ∧
      ReadsTemplate pathGrammar.interpolations commentedCode.classTemplate.tail (plainParts "flex ".toList ++
        [.interpolation "(/* why */ on)?('font-bold'):''".toList, .char ' ', .interpolation "icon".toList]) [] ∧
      (∀ test parts, ReadsConditional pathGrammar "(/* why */ on)?('font-bold'):''".toList test parts ↔
        test = "on".toList ∧ parts = plainParts "font-bold".toList) ∧
      ∃ object, commentedCode.styleObject = some ('{' :: object) ∧ ReadsMembers pathGrammar object
        [.spread "theme.base".toList, .property (plainParts "width".toList) "size".toList] [] := by
  have path {e : Text} (hne : e ≠ []) (he : e.all isPathChar = true) : pathGrammar.Source e :=
    .path hne (List.all_eq_true.mp he)
  have hspace : Spacing " ".toList := .gap (by decide) .nil
  have hwhy : Spacing "/* why */ ".toList := .block (by decide : ¬ ['*', '/'] <:+: " why ".toList) hspace
  have hpx : Spacing " /* px */".toList := .gap (by decide) (.block (by decide : ¬ ['*', '/'] <:+: " px ".toList) .nil)
  have hall : Spacing " // all\n".toList :=
    .gap (by decide) (.line (by simp [isLineBreak] : ∀ d ∈ [' ', 'a', 'l', 'l'], isLineBreak d = false) (by decide) .nil)
  have hon : IsClosed pathGrammar "/* why */ on ".toList "on".toList :=
    ⟨"/* why */ ".toList, " ".toList, rfl, hwhy, path (by decide) (by decide), hspace, .nil⟩
  have hsize : IsClosed pathGrammar "\n size /* px */".toList "size".toList :=
    ⟨"\n ".toList, " /* px */".toList, rfl, .gap (by decide) hspace, path (by decide) (by decide), hpx, hpx⟩
  have hbase : IsWritten pathGrammar "theme.base // all\n".toList "theme.base".toList :=
    ⟨[], " // all\n".toList, rfl, .nil, path (by decide) (by decide), hall⟩
  have hwritten : WellWritten pathGrammar boldSettings.vocabulary commentedMeaning.finish
      (takeIcons boldSettings.iconEscapes commentedChain).2
      [.spread "theme.base".toList, .property (plainParts "width".toList) "size".toList] := by
    rw [takeIcons_commentedChain]
    refine ⟨by decide, by decide, ?_, .cons (.spread hbase) (.cons (.property hsize) .nil), ?_⟩
    · intro b hb a hclass hgate
      simp only [Meaning.finish, commentedMeaning, List.mem_cons, List.not_mem_nil, or_false] at hb
      rcases hb with rfl | rfl | rfl
      · cases hgate
      · cases hgate
        exact ⟨_, hon⟩
      · exact absurd hclass (by decide)
    · intro e he
      obtain rfl := List.mem_singleton.mp he
      exact ⟨_, isClosed_source (path (by decide) (by decide))⟩
  have hcompile : (compile boldSettings commentedChain).result = .ok commentedCode := by decide +kernel
  obtain ⟨⟨inner, hinner, htemplate⟩, hgates, -, hobject⟩ :=
    compile_embeds pathGrammar means_commentedChain hwritten hcompile
  rw [takeIcons_commentedChain] at htemplate
  obtain ⟨object, hcode, hmembers⟩ := hobject _ rfl
  refine ⟨hcompile, ?_, ?_, object, congrArg some hcode, (hmembers _ _).2 ⟨rfl, rfl⟩⟩
  · rw [hinner]
    exact (htemplate _ _).2 ⟨by decide +kernel, rfl⟩
  · exact hgates _ (List.mem_cons_of_mem _ List.mem_cons_self) "font-bold".toList _ _ (by decide) rfl hon

end TerseStyle.Chain

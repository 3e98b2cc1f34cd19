/-
The class template of a chain as a script reads it. Keys, entries of the vocabulary and constants are escaped piece by
piece and put next to each other; here the whole is read back. A piece is judged by what it does in front of any text
that does not start with a brace, since a dollar sign at its end would open an interpolation with one.

Results:
- `Shows.append`, `shows_intercalate`: pieces that stand for something do so next to each other.
- `Candidate.resolve_shows`: the fragment of a candidate stands for its parts.
- `resolve_template`: the template has one reading, the parts of the candidates and icons.
-/
import Mathlib.Data.List.Forall2
import TerseStyle.Chain.Utility
import TerseStyle.Proofs.Script.Quotation

namespace TerseStyle.Chain

open Script

/-! ## Pieces of a template -/

variable {X : ExpressionSyntax} {f g : Text} {ps qs : List QuotedPart}

/-- a piece of template that stands for parts, in front of every text that does not start with a brace -/
def Shows (X : ExpressionSyntax) (f : Text) (ps : List QuotedPart) : Prop :=
  ∀ t more rest, t.head? ≠ some '{' → ReadsTemplate X t more rest → ReadsTemplate X (f ++ t) (ps ++ more) rest

theorem shows_nil : Shows X [] [] := fun _ _ _ _ h => h

theorem Shows.append (hf : Shows X f ps) (hg : Shows X g qs) (hhead : g.head? ≠ some '{') :
    Shows X (f ++ g) (ps ++ qs) := by
  intro t more rest ht h
  rw [List.append_assoc, List.append_assoc]
  refine hf _ _ _ ?_ (hg t more rest ht h)
  cases g with
  | nil => exact ht
  | cons => exact hhead

theorem shows_escaped {s : Text} (hs : '\r' ∉ s) : Shows X (escapeTemplate s) (plainParts s) :=
  fun _ _ _ ht h => readsTemplate_escaped hs ht h

/-- the characters that stand for themselves in a template, whatever comes behind them -/
def isUnspecial (c : Char) : Bool := c != '\x60' && c != '\\' && c != '\r' && c != '$'

theorem Shows.behind (s : Text) (hs : s.all isUnspecial = true) (hf : Shows X f ps) :
    Shows X (s ++ f) (plainParts s ++ ps) := by
  intro t more rest ht h
  induction s with
  | nil => exact hf t more rest ht h
  | cons c s ih =>
    rw [List.all_cons, Bool.and_eq_true] at hs
    have hc := hs.1
    simp only [isUnspecial, Bool.and_eq_true, bne_iff_ne] at hc
    obtain ⟨⟨⟨hback, hslash⟩, hreturn⟩, hdollar⟩ := hc
    exact .char hback hslash hreturn (fun h => absurd h hdollar) (ih hs.2)

theorem shows_interpolation {e : Text} (he : X.Complete e) :
    Shows X ('$' :: '{' :: (e ++ ['}'])) [.interpolation e] := by
  intro t more rest _ h
  have htext : '$' :: '{' :: (e ++ ['}']) ++ t = '$' :: '{' :: (e ++ '}' :: t) := by simp
  rw [htext]
  exact .interpolation he h

/-- pieces with a space between each two -/
theorem shows_intercalate {fs : List Text} {pss : List (List QuotedPart)} (h : List.Forall₂ (Shows X) fs pss) :
    Shows X ([' '].intercalate fs) ([.char ' '].intercalate pss) := by
  induction h with
  | nil => exact shows_nil
  | @cons f ps fs pss hf hrest ih =>
    cases hrest with
    | nil =>
      rw [List.intercalate_singleton, List.intercalate_singleton]
      exact hf
    | cons =>
      rw [List.intercalate_cons_cons, List.intercalate_cons_cons, List.append_assoc, List.append_assoc]
      exact hf.append (.behind [' '] (by decide) ih) (by simp)

/-! ## What a candidate stands for -/

/-- a text without line breaks -/
def OneLine (t : Text) : Prop := ∀ c ∈ t, c ≠ '\n' ∧ c ≠ '\r'

instance (t : Text) : Decidable (OneLine t) := List.decidableBAll _ t

/-- a class that is present when the test is truthy, as an expression -/
def conditionalClass (test className : Text) : Text :=
  "(".toList ++ test ++ ")?('".toList ++ escapeSingleQuoted className ++ "'):''".toList

/-- what an argument puts between the brackets of an arbitrary value class -/
def bracketed (a : Argument) : Text := ['_'].intercalate (Text.words a.value)

/-- the parts of a class template that a candidate stands for; none, if it becomes a style -/
def Candidate.parts? (v : Vocabulary) (arguments : List Argument) (c : Candidate) : Option (List QuotedPart) :=
  match v.classOf? c.key, c.gate with
  | some className, .always => some (plainParts (c.variantPrefix ++ className))
  | some className, .argument index =>
    arguments[index]?.map fun a => [.interpolation (conditionalClass (Text.trim a.raw) (c.variantPrefix ++ className))]
  | none, .always => some (plainParts (c.variantPrefix ++ c.key))
  | none, .argument index =>
    arguments[index]?.bind fun a =>
      match a.kind with
      | .variable => none
      | .constant =>
        some (plainParts (c.variantPrefix ++ (v.prefixOf? c.key).getD c.key ++ "-[".toList ++ bracketed a ++ [']']))

/-- the parts of the class template of candidates and icons: a space between each two, and one before each icon -/
def templateParts (v : Vocabulary) (arguments : List Argument) (candidates : List Candidate) (icons : List Text) :
    List QuotedPart :=
  [.char ' '].intercalate (candidates.filterMap (·.parts? v arguments)) ++
    icons.flatMap fun e => [.char ' ', .interpolation e]

/-- what the reading of a class template relies on: keys and entries have one line, and the expressions in it are
complete -/
structure Readable (X : ExpressionSyntax) (v : Vocabulary) (arguments : List Argument) (candidates : List Candidate)
    (icons : List Text) : Prop where
  keys : ∀ c ∈ candidates, OneLine c.key
  classes : ∀ e ∈ v.classes.entries, OneLine e.2
  propertyPrefixes : ∀ e ∈ v.propertyPrefixes.entries, OneLine e.2
  /-- the arguments that gate candidates with a class -/
  gates : ∀ c ∈ candidates, ∀ index a, (v.classOf? c.key).isSome = true → c.gate = .argument index →
    arguments[index]? = some a → X.Complete a.raw
  icons : ∀ e ∈ icons, X.Complete e

theorem OneLine.append {s t : Text} (hs : OneLine s) (ht : OneLine t) : OneLine (s ++ t) :=
  List.forall_mem_append.2 ⟨hs, ht⟩

theorem OneLine.return_notMem {t : Text} (h : OneLine t) : '\r' ∉ t := fun hmem => (h '\r' hmem).2 rfl

theorem plainParts_append (s t : Text) : plainParts (s ++ t) = plainParts s ++ plainParts t := List.map_append

theorem oneLine_variantPrefix (c : Candidate) : OneLine c.variantPrefix := by
  unfold Candidate.variantPrefix
  split <;> decide

theorem mem_of_get? {d : Dictionary} {key value : Text} (h : d.get? key = some value) : (key, value) ∈ d.entries := by
  obtain ⟨front, back, hentries, _⟩ := List.lookup_eq_some_iff.1 h
  rw [hentries]
  simp

/-- a class is a key or an entry of the vocabulary -/
theorem oneLine_classOf {v : Vocabulary} (hclasses : ∀ e ∈ v.classes.entries, OneLine e.2) {key className : Text}
    (hkey : OneLine key) (hclass : v.classOf? key = some className) : OneLine className := by
  obtain ⟨mapped, hmapped, hname⟩ := Option.map_eq_some_iff.1 hclass
  split at hname
  · rw [← hname]
    exact hkey
  · rw [← hname]
    exact hclasses _ (mem_of_get? hmapped)

namespace Readable

variable {v : Vocabulary} {arguments : List Argument} {candidates : List Candidate} {icons : List Text}
  {c : Candidate}

theorem oneLine_class (h : Readable X v arguments candidates icons) (hc : c ∈ candidates) {className : Text}
    (hclass : v.classOf? c.key = some className) : OneLine (c.variantPrefix ++ className) :=
  (oneLine_variantPrefix c).append (oneLine_classOf h.classes (h.keys c hc) hclass)

theorem oneLine_stem (h : Readable X v arguments candidates icons) (hc : c ∈ candidates) :
    OneLine ((v.prefixOf? c.key).getD c.key) := by
  cases hstem : v.prefixOf? c.key with
  | none => exact h.keys c hc
  | some stem => exact h.propertyPrefixes _ (mem_of_get? hstem)

end Readable

/-! ## One candidate -/

/-- line breaks are blanks -/
theorem oneLine_of_not_isBlank {t : Text} (h : ∀ c ∈ t, isBlank c = false) : OneLine t := by
  intro c hc
  refine ⟨?_, ?_⟩ <;>
  · rintro rfl
    exact absurd (h _ hc) (by decide)

/-- the words of a constant have no blanks -/
theorem oneLine_bracketed (a : Argument) : OneLine (bracketed a) := by
  have hsep : OneLine ['_'] := by decide
  exact Text.forall_mem_intercalate hsep fun w hw => oneLine_of_not_isBlank (Text.not_isBlank_of_mem_words hw)

theorem gated_eq (test className : Text) :
    Candidate.gated test className = '$' :: '{' :: (conditionalClass test className ++ ['}']) := by
  unfold Candidate.gated conditionalClass
  simp only [List.append_assoc]
  rfl

theorem shows_gated {test className : Text} (htest : X.Complete test) (hclass : OneLine className) :
    Shows X (Candidate.gated (Text.trim test) className)
      [.interpolation (conditionalClass (Text.trim test) className)] := by
  rw [gated_eq]
  exact shows_interpolation (X.conditional (X.trimmed htest) (readsString_escaped hclass []))

theorem shows_arbitrary (c : Candidate) {stem value : Text} (hstem : OneLine stem) (hvalue : OneLine value) :
    Shows X (c.arbitrary stem (escapeTemplate value))
      (plainParts (c.variantPrefix ++ stem ++ "-[".toList ++ value ++ [']'])) := by
  have hprefix : c.variantPrefix.all isUnspecial = true := by
    unfold Candidate.variantPrefix
    split <;> decide
  have hclose : Shows X [']'] (plainParts [']']) := .behind [']'] (by decide) shows_nil
  have hbracket : Shows X ("-[".toList ++ (escapeTemplate value ++ [']']))
      (plainParts "-[".toList ++ (plainParts value ++ plainParts [']'])) :=
    .behind "-[".toList (by decide) ((shows_escaped hvalue.return_notMem).append hclose (by decide))
  have := ((shows_escaped hstem.return_notMem).append hbracket (by simp)).behind _ hprefix
  simpa only [Candidate.arbitrary, plainParts_append, List.append_assoc] using this

/-- the fragment of a candidate stands for its parts; a candidate that becomes a style has neither -/
theorem Candidate.resolve_shows {v : Vocabulary} {arguments : List Argument} {candidates : List Candidate}
    {icons : List Text} {c : Candidate} {piece : Piece} (hreadable : Readable X v arguments candidates icons)
    (hc : c ∈ candidates) (h : c.resolve v arguments = .ok piece) :
    (piece.fragment? = none ∧ c.parts? v arguments = none) ∨
      ∃ f ps, piece.fragment? = some f ∧ c.parts? v arguments = some ps ∧ Shows X f ps := by
  unfold Candidate.resolve at h
  unfold Candidate.parts?
  cases hclass : v.classOf? c.key with
  | some className =>
    have hline := hreadable.oneLine_class hc hclass
    simp only [hclass] at h ⊢
    cases hgate : c.gate with
    | always =>
      simp only [hgate] at h ⊢
      cases h
      exact Or.inr ⟨_, _, rfl, rfl, shows_escaped hline.return_notMem⟩
    | argument index =>
      simp only [hgate, Candidate.gateArgument] at h ⊢
      cases ha : arguments[index]? with
      | none =>
        rw [ha] at h
        cases h
      | some a =>
        rw [ha] at h
        cases h
        have htest := hreadable.gates c hc index a (by rw [hclass]; rfl) hgate ha
        exact Or.inr ⟨_, _, rfl, rfl, shows_gated htest hline⟩
  | none =>
    have hkey := (oneLine_variantPrefix c).append (hreadable.keys c hc)
    simp only [hclass] at h ⊢
    cases hgate : c.gate with
    | always =>
      simp only [hgate] at h ⊢
      split at h
      · rename_i himplicit
        cases h
        rw [Bool.and_eq_true, decide_eq_true_iff, Bool.not_eq_true'] at himplicit
        have hshows : Shows X (implicitKey ++ []) (plainParts implicitKey ++ []) := .behind _ (by decide) shows_nil
        rw [List.append_nil, List.append_nil] at hshows
        refine Or.inr ⟨_, _, rfl, rfl, ?_⟩
        rw [Candidate.variantPrefix, himplicit.2, himplicit.1]
        exact hshows
      · cases h
        exact Or.inr ⟨_, _, rfl, rfl, shows_escaped hkey.return_notMem⟩
    | argument index =>
      simp only [hgate, Candidate.gateArgument] at h ⊢
      cases ha : arguments[index]? with
      | none =>
        rw [ha] at h
        cases h
      | some a =>
        rw [ha] at h
        change c.arbitraryValue v a = .ok piece at h
        simp only [Option.bind_some]
        unfold Candidate.arbitraryValue at h
        cases hkind : a.kind with
        | «variable» =>
          simp only [hkind] at h ⊢
          split at h <;> cases h
          exact Or.inl ⟨rfl, trivial⟩
        | constant =>
          simp only [hkind] at h ⊢
          have hshows := shows_arbitrary (X := X) c (hreadable.oneLine_stem hc) (oneLine_bracketed a)
          cases hstem : v.prefixOf? c.key with
          | none =>
            simp only [hstem, Option.getD_none] at h hshows ⊢
            cases h
            exact Or.inr ⟨_, _, rfl, rfl, hshows⟩
          | some stem =>
            simp only [hstem, Option.getD_some] at h hshows ⊢
            cases h
            exact Or.inr ⟨_, _, rfl, rfl, hshows⟩

/-! ## The whole template -/

variable {v : Vocabulary} {arguments : List Argument} {candidates : List Candidate} {icons : List Text}

/-- candidates that do not fail are a first one that does not fail, and others that do not fail -/
theorem resolveAll_cons_ok {c : Candidate} {cs : List Candidate} {pieces : List Piece}
    (h : resolveAll v arguments (c :: cs) = (pieces, none)) : ∃ piece more, c.resolve v arguments = .ok piece ∧
      resolveAll v arguments cs = (more, none) ∧ pieces = piece :: more := by
  rw [resolveAll] at h
  rcases hpiece : c.resolve v arguments with e | piece
  · rw [hpiece] at h
    cases h
  · rw [hpiece] at h
    rcases hrest : resolveAll v arguments cs with ⟨more, error⟩
    rw [hrest] at h
    cases h
    exact ⟨piece, more, rfl, rfl, rfl⟩

theorem resolveAll_shows (hreadable : Readable X v arguments candidates icons) {cs : List Candidate}
    (hcs : ∀ c ∈ cs, c ∈ candidates) {pieces : List Piece} (h : resolveAll v arguments cs = (pieces, none)) :
    List.Forall₂ (Shows X) (pieces.filterMap (·.fragment?)) (cs.filterMap (·.parts? v arguments)) := by
  induction cs generalizing pieces with
  | nil =>
    cases h
    exact .nil
  | cons c cs ih =>
    obtain ⟨piece, more, hpiece, hrest, rfl⟩ := resolveAll_cons_ok h
    have hmore := ih (fun d hd => hcs d (List.mem_cons_of_mem c hd)) hrest
    rcases Candidate.resolve_shows hreadable (hcs c List.mem_cons_self) hpiece with
      ⟨hnone, hparts⟩ | ⟨f, ps, hsome, hparts, hshows⟩
    · simpa only [List.filterMap_cons, hnone, hparts] using hmore
    · simpa only [List.filterMap_cons, hsome, hparts] using hmore.cons hshows

theorem head?_iconSuffixes (icons : List Text) : (icons.flatMap iconSuffix).head? ≠ some '{' := by
  cases icons with
  | nil => simp
  | cons e icons =>
    intro h
    have hspace : ' ' = '{' := Option.some.inj h
    exact absurd hspace (by decide)

theorem shows_icons (hicons : ∀ e ∈ icons, X.Complete e) :
    Shows X (icons.flatMap iconSuffix) (icons.flatMap fun e => [.char ' ', .interpolation e]) := by
  induction icons with
  | nil => exact shows_nil
  | cons e icons ih =>
    have hrest := ih fun d hd => hicons d (List.mem_cons_of_mem e hd)
    have hicon : Shows X (iconSuffix e) [.char ' ', .interpolation e] :=
      .behind [' '] (by decide) (shows_interpolation (hicons e List.mem_cons_self))
    rw [List.flatMap_cons, List.flatMap_cons]
    exact hicon.append hrest (head?_iconSuffixes icons)

theorem resolve_ok {o : Outcome} {compiled : Compiled} (h : (resolve v arguments o icons).result = .ok compiled) :
    ∃ pieces, resolveAll v arguments o.candidates = (pieces, none) ∧
      compiled.classTemplate = classTemplate (pieces.filterMap (·.fragment?)) icons := by
  unfold resolve at h
  rcases hall : resolveAll v arguments o.candidates with ⟨pieces, error⟩
  simp only [hall] at h
  cases error with
  | none =>
    cases h
    exact ⟨pieces, rfl, rfl⟩
  | some e => cases h

/-- behind its first backtick, a class template is read as the parts of the candidates and icons alone -/
theorem resolve_reads {o : Outcome} {compiled : Compiled} (hreadable : Readable X v arguments o.candidates icons)
    (h : (resolve v arguments o icons).result = .ok compiled) :
    ∃ inner, compiled.classTemplate = '\x60' :: inner ∧ ∀ parts rest, ReadsTemplate X inner parts rest ↔
      parts = templateParts v arguments o.candidates icons ∧ rest = [] := by
  obtain ⟨pieces, hpieces, htemplate⟩ := resolve_ok h
  have hfragments := resolveAll_shows hreadable (fun _ hc => hc) hpieces
  have hbody : Shows X ([' '].intercalate (pieces.filterMap (·.fragment?)) ++ icons.flatMap iconSuffix)
      (templateParts v arguments o.candidates icons) :=
    (shows_intercalate hfragments).append (shows_icons hreadable.icons) (head?_iconSuffixes icons)
  have hreads := hbody ['\x60'] [] [] (by decide) .close
  rw [List.append_nil] at hreads
  refine ⟨_, htemplate, ?_⟩
  intro parts rest
  constructor
  · intro hother
    exact hother.unique hreads
  · rintro ⟨rfl, rfl⟩
    exact hreads

/-- **The class template has one reading.** Behind its first backtick it is read as the parts of the candidates and
icons, and as nothing else; it is closed by its last character. In an interpolation that stands for a class under a
condition, the string that holds the class stands for that class and ends where it should, whatever comes behind. -/
theorem resolve_template {o : Outcome} {compiled : Compiled} (hreadable : Readable X v arguments o.candidates icons)
    (h : (resolve v arguments o icons).result = .ok compiled) :
    ∃ inner, compiled.classTemplate = '\x60' :: inner ∧
      (∀ parts rest, ReadsTemplate X inner parts rest ↔
        parts = templateParts v arguments o.candidates icons ∧ rest = []) ∧
      ∀ c ∈ o.candidates, ∀ className, v.classOf? c.key = some className → ∀ behind parts rest,
        ReadsString '\'' (escapeSingleQuoted (c.variantPrefix ++ className) ++ '\'' :: behind) parts rest ↔
          parts = plainParts (c.variantPrefix ++ className) ∧ rest = behind := by
  obtain ⟨inner, htemplate, hreads⟩ := resolve_reads hreadable h
  refine ⟨inner, htemplate, hreads, ?_⟩
  intro c hc className hclass behind parts rest
  have hstring := readsString_escaped (hreadable.oneLine_class hc hclass) behind
  constructor
  · intro hother
    exact hother.unique (by decide) hstring
  · rintro ⟨rfl, rfl⟩
    exact hstring

/-- entries with a backtick, a quote, an interpolation, a backslash and a dollar sign at the end -/
def specialVocabulary : Vocabulary :=
  ⟨.ofList [("tick".toList, "a\x60b".toList), ("quote".toList, "it's $\x7bx\x7d\\".toList)],
    .ofList [("w".toList, "w$".toList)]⟩

/-- candidates with and without these entries, two of them under an argument -/
def specialCandidates : List Candidate :=
  [⟨"tick".toList, false, .always⟩, ⟨"quote".toList, true, .argument 0⟩, ⟨"w".toList, true, .argument 1⟩,
    ⟨"k\\".toList, false, .always⟩]

/-- arguments for the candidates -/
def specialArguments : List Argument := [.classify " ok ".toList, .classify "'\x7ba \x60b'".toList]

/-- special characters of keys, entries and constants stand for themselves in the template -/
theorem resolve_template_special :
    ∃ compiled, (resolve specialVocabulary specialArguments ⟨specialCandidates, []⟩ ["icon".toList]).result =
        .ok compiled ∧
      compiled.classTemplate =
        "\x60a\\\x60b $\x7b(ok)?('sm:it\\'s $\x7bx\x7d\\\\'):''\x7d sm:w$-[\x7ba_\\\x60b] k\\\\ $\x7bicon\x7d\x60".toList ∧
      ReadsTemplate .nested compiled.classTemplate.tail (plainParts "a\x60b ".toList ++
        .interpolation "(ok)?('sm:it\\'s $\x7bx\x7d\\\\'):''".toList ::
          plainParts " sm:w$-[\x7ba_\x60b] k\\ ".toList ++ [.interpolation "icon".toList]) [] := by
  have hreadable : Readable .nested specialVocabulary specialArguments specialCandidates ["icon".toList] := by
    refine ⟨by decide, by decide, by decide, ?_, ?_⟩
    · intro c hc index a hclass hgate ha
      simp only [specialCandidates, List.mem_cons, List.not_mem_nil, or_false] at hc
      rcases hc with rfl | rfl | rfl | rfl
      · cases hgate
      · cases hgate
        cases ha
        exact .of_plain (by decide)
      · exact absurd hclass (by decide)
      · cases hgate
    · intro e he
      rw [List.mem_singleton.1 he]
      exact .of_plain (by decide)
  obtain ⟨inner, hinner, hreads, _⟩ := resolve_template (o := ⟨specialCandidates, []⟩) hreadable rfl
  refine ⟨_, rfl, by decide, ?_⟩
  rw [hinner]
  exact (hreads _ _).2 ⟨by decide, rfl⟩

end TerseStyle.Chain

/-
Rows of items between commas, as they stand in the parentheses of a call and in the braces of an object. Rows with a comma
between them are one row again: a text that is put among the members of an object adds as many of them as it is a row of.
Where no item goes on behind a comma or a closing bracket, a row is read in one way.

Results:
- `Row.append`, `Row.intercalate`: rows behind each other are one row.
- `Row.unique`: a row is read in one way, up to the bracket that closes it.
- `separates_entry`, `ReadsEntries.unique`: so are the entries of an object, if the expressions in it end at commas.
-/
import TerseStyle.Proofs.Script.Expressions

namespace TerseStyle.Script

/-! ## Rows -/

variable {α β : Type} {R : Text → α → Prop}

/-- `Row R t as`: a text is the items `as`, each in some spacing, with a comma between each two of them -/
inductive Row (R : Text → α → Prop) : Text → List α → Prop
  | one {l t k : Text} {a : α} (hl : Spacing l) (ht : R t a) (hk : Spacing k) : Row R (l ++ (t ++ k)) [a]
  | cons {l t k more : Text} {a : α} {as : List α} (hl : Spacing l) (ht : R t a) (hk : Spacing k) (h : Row R more as) :
      Row R (l ++ (t ++ (k ++ ',' :: more))) (a :: as)

namespace Row

variable {s t l : Text} {a : α} {as bs : List α}

theorem ne_nil (h : Row R t as) : as ≠ [] := by
  cases h <;> exact List.cons_ne_nil _ _

/-- rows with a comma between them are one row -/
theorem append (h : Row R s as) (h' : Row R t bs) : Row R (s ++ ',' :: t) (as ++ bs) := by
  induction h with
  | one hl ht hk =>
    rw [List.append_assoc, List.append_assoc]
    exact .cons hl ht hk h'
  | cons hl ht hk _ ih =>
    simp only [List.append_assoc, List.cons_append]
    exact .cons hl ht hk ih

/-- spacing in front of a row belongs to its first item -/
theorem indent (hl : Spacing l) (h : Row R t as) : Row R (l ++ t) as := by
  cases h with
  | one hl' ht hk =>
    rw [← List.append_assoc]
    exact .one (hl.append hl') ht hk
  | cons hl' ht hk h =>
    rw [← List.append_assoc]
    exact .cons (hl.append hl') ht hk h

theorem map {R' : Text → β → Prop} {f : α → β} (hf : ∀ t a, R t a → R' t (f a)) (h : Row R t as) :
    Row R' t (as.map f) := by
  induction h with
  | one hl ht hk => exact .one hl (hf _ _ ht) hk
  | cons hl ht hk _ ih => exact .cons hl (hf _ _ ht) hk ih

/-- a row behind a text that makes another item of its first one -/
theorem behind {R' : Text → β → Prop} {f : α → β} {b : β} {p : Text}
    (hfirst : ∀ l t, Spacing l → R t a → R' (p ++ (l ++ t)) b) (hf : ∀ t c, R t c → R' t (f c))
    (h : Row R t (a :: as)) : Row R' (p ++ t) (b :: as.map f) := by
  cases h with
  | @one l t k _ hl ht hk =>
    have := Row.one .nil (hfirst l t hl ht) hk
    simpa only [List.append_assoc, List.nil_append, List.map_nil] using this
  | @cons l t k more _ _ hl ht hk h =>
    have := Row.cons .nil (hfirst l t hl ht) hk (h.map hf)
    simpa only [List.append_assoc, List.nil_append] using this

/-- rows that are written one behind the other, with a comma and a space between each two -/
theorem intercalate {ws : List Text} {rows : List (List α)} (hne : ws ≠ []) (h : List.Forall₂ (Row R) ws rows) :
    Row R (", ".toList.intercalate ws) rows.flatten := by
  have hspace : Spacing [' '] := .gap (by decide) .nil
  induction h with
  | nil => exact absurd rfl hne
  | @cons w row ws rows hw hrest ih =>
    cases hrest with
    | nil =>
      rw [List.intercalate_singleton, List.flatten_cons, List.flatten_nil, List.append_nil]
      exact hw
    | @cons w' row' ws rows hw' hrest =>
      have hmore := ih (List.cons_ne_nil w' ws)
      rw [List.intercalate_cons_cons, List.flatten_cons, List.append_assoc]
      exact hw.append (hmore.indent hspace)

end Row

/-! ## Where rows end -/

/-- a text in front of which an item ends: a comma or a closing bracket behind spacing, whatever comes then -/
inductive Delimits : Text → Prop
  | intro {l t : Text} {c : Char} (hl : Spacing l) (hc : c = ',' ∨ charKind c = .closing) : Delimits (l ++ c :: t)

/-- items that end at commas and closing brackets, and do not start there -/
structure Separates (R : Text → α → Prop) : Prop where
  starts {t : Text} {a : α} (s : Text) : R t a → StartsToken (t ++ s)
  opens {t s u : Text} {a : α} {c : Char} : R t a → charKind c = .closing → t ++ s ≠ c :: u
  ends {t t' s s' : Text} {a a' : α} : R t a → R t' a' → Delimits s → Delimits s' → t ++ s = t' ++ s' →
    a = a' ∧ s = s'

/-- what stands behind a row: the bracket that closes it, possibly with a comma in front of it -/
inductive Closes (close : Char) : Text → Text → Prop
  | bare {rest : Text} : Closes close (close :: rest) rest
  | comma {l rest : Text} (hl : Spacing l) : Closes close (',' :: (l ++ close :: rest)) rest

section Unique

variable {close : Char} {s s' t t' k rest rest' : Text} {as bs : List α}

theorem startsToken_comma (t : Text) : StartsToken (',' :: t) := startsToken_cons (by decide) (by decide) t

theorem Closes.starts (hclose : charKind close = .closing) (h : Closes close s rest) : StartsToken s := by
  cases h with
  | bare => exact startsToken_closing hclose _
  | comma => exact startsToken_comma _

theorem Closes.delimits (hclose : charKind close = .closing) (hk : Spacing k) (h : Closes close s rest) :
    Delimits (k ++ s) := by
  cases h with
  | bare => exact .intro hk (.inr hclose)
  | comma => exact .intro hk (.inl rfl)

theorem Closes.unique (hclose : charKind close = .closing) (h : Closes close s rest) (h' : Closes close s rest') :
    rest = rest' := by
  cases h with
  | bare =>
    cases h' with
    | bare => rfl
    | comma => cases hclose
  | @comma l _ hl =>
    generalize hu : l ++ close :: rest = u at h'
    cases h' with
    | bare => cases hclose
    | comma hl' =>
      obtain ⟨_, hrest⟩ := hl.unique hl' (startsToken_closing hclose _) (startsToken_closing hclose _) hu
      exact (List.cons.inj hrest).2

/-- behind the comma of a row there is another item, and not the end -/
theorem Row.not_closes (hR : Separates R) (hclose : charKind close = .closing) (h : Row R t as) :
    ¬ Closes close (',' :: (t ++ s)) rest := by
  have hitem {l u v w : Text} {a : α} (hl : Spacing l) (ht : R u a) (heq : t ++ s = l ++ (u ++ v)) (hw : Spacing w) :
      t ++ s ≠ w ++ close :: rest := by
    intro hother
    obtain ⟨_, hstart⟩ := hl.unique hw (hR.starts v ht) (startsToken_closing hclose rest) (heq.symm.trans hother)
    exact hR.opens ht hclose hstart
  generalize hu : ',' :: (t ++ s) = u
  intro hcloses
  cases hcloses with
  | bare =>
    rw [← (List.cons.inj hu).1] at hclose
    cases hclose
  | comma hw =>
    refine absurd (List.cons.inj hu).2 ?_
    cases h with
    | @one l t k a hl ht =>
      have heq : l ++ (t ++ k) ++ s = l ++ (t ++ (k ++ s)) := by simp only [List.append_assoc]
      exact hitem hl ht heq hw
    | @cons l t k more a _ hl ht =>
      have heq : l ++ (t ++ (k ++ ',' :: more)) ++ s = l ++ (t ++ (k ++ ',' :: more ++ s)) := by
        simp only [List.append_assoc]
      exact hitem hl ht heq hw

/-- **A row is read in one way**, and what stands behind it is, too. -/
theorem Row.unique (hR : Separates R) (hclose : charKind close = .closing) (h : Row R t as) (h' : Row R t' bs)
    (hs : Closes close s rest) (hs' : Closes close s' rest') (heq : t ++ s = t' ++ s') : as = bs ∧ rest = rest' := by
  -- item by item: both rows have the same one, and if one of them is over there, so is the other
  induction h generalizing t' bs with
  | one hl ht hk =>
    cases h' with
    | one hl' ht' hk' =>
      simp only [List.append_assoc] at heq
      obtain ⟨_, hitem⟩ := hl.unique hl' (hR.starts _ ht) (hR.starts _ ht') heq
      obtain ⟨rfl, hbehind⟩ := hR.ends ht ht' (hs.delimits hclose hk) (hs'.delimits hclose hk') hitem
      obtain ⟨_, rfl⟩ := hk.unique hk' (hs.starts hclose) (hs'.starts hclose) hbehind
      exact ⟨rfl, hs.unique hclose hs'⟩
    | cons hl' ht' hk' hmore =>
      simp only [List.append_assoc, List.cons_append] at heq
      obtain ⟨_, hitem⟩ := hl.unique hl' (hR.starts _ ht) (hR.starts _ ht') heq
      obtain ⟨_, hbehind⟩ := hR.ends ht ht' (hs.delimits hclose hk) (.intro hk' (.inl rfl)) hitem
      obtain ⟨_, rfl⟩ := hk.unique hk' (hs.starts hclose) (startsToken_comma _) hbehind
      exact absurd hs (hmore.not_closes hR hclose)
  | cons hl ht hk hmore ih =>
    cases h' with
    | one hl' ht' hk' =>
      simp only [List.append_assoc, List.cons_append] at heq
      obtain ⟨_, hitem⟩ := hl.unique hl' (hR.starts _ ht) (hR.starts _ ht') heq
      obtain ⟨_, hbehind⟩ := hR.ends ht ht' (.intro hk (.inl rfl)) (hs'.delimits hclose hk') hitem
      obtain ⟨_, rfl⟩ := hk.unique hk' (startsToken_comma _) (hs'.starts hclose) hbehind
      exact absurd hs' (hmore.not_closes hR hclose)
    | cons hl' ht' hk' hmore' =>
      simp only [List.append_assoc, List.cons_append] at heq
      obtain ⟨_, hitem⟩ := hl.unique hl' (hR.starts _ ht) (hR.starts _ ht') heq
      obtain ⟨rfl, hbehind⟩ := hR.ends ht ht' (.intro hk (.inl rfl)) (.intro hk' (.inl rfl)) hitem
      obtain ⟨_, hcomma⟩ := hk.unique hk' (startsToken_comma _) (startsToken_comma _) hbehind
      obtain ⟨rfl, rfl⟩ := ih hmore' (List.cons.inj hcomma).2
      exact ⟨rfl, rfl⟩

end Unique

/-! ## Expressions in rows -/

/-- a language in which commas separate expressions -/
structure ListGrammar extends ExpressionGrammar where
  /-- whether an expression alone is a member of an object, as a name is -/
  Alone : Text → Prop
  /-- an expression ends at one place in front of a comma or a closing bracket -/
  separates {e e' s t : Text} : Source e → Source e' → Delimits s → Delimits t → e ++ s = e' ++ t → e = e'
  /-- no expression starts with a closing bracket -/
  opens {e : Text} : Source e → ∀ c ∈ e.head?, charKind c ≠ .closing
  /-- no expression starts as a member of an object with a key in quotes or a spread does -/
  apart {e s : Text} : Source e → Delimits s → ¬ StartsMember (e ++ s)

variable {X : ListGrammar}

/-- a text is an expression -/
def IsSource (X : ListGrammar) (t e : Text) : Prop := X.Source t ∧ e = t

theorem separates_source (X : ListGrammar) : Separates (IsSource X) where
  starts s h := X.starts s h.1
  opens {t s u e c} h hc heq := by
    obtain ⟨d, more, rfl⟩ := List.exists_cons_of_ne_nil (X.ne_nil h.1)
    obtain ⟨rfl, _⟩ := List.cons.inj heq
    exact X.opens h.1 d rfl hc
  ends h h' hs hs' heq := by
    obtain ⟨ht, rfl⟩ := h
    obtain ⟨ht', rfl⟩ := h'
    obtain rfl := X.separates ht ht' hs hs' heq
    exact ⟨rfl, List.append_cancel_left heq⟩

/-- a row of one expression is that expression between spacing -/
theorem row_singleton_iff {t e : Text} : Row (IsSource X) t [e] ↔ IsWritten X.toExpressionGrammar t e := by
  constructor
  · intro h
    cases h with
    | one hl ht hk =>
      obtain ⟨ht, rfl⟩ := ht
      exact ⟨_, _, rfl, hl, ht, hk⟩
    | cons _ _ _ hmore => exact absurd rfl hmore.ne_nil
  · rintro ⟨lead, trail, rfl, hlead, he, htrail⟩
    exact .one hlead ⟨he, rfl⟩ htrail

/-- a text is at most one row of expressions -/
theorem row_source_unique {t : Text} {es es' : List Text} (h : Row (IsSource X) t es) (h' : Row (IsSource X) t es') :
    es = es' := by
  have hclose : Closes ')' [')'] [] := .bare
  exact (h.unique (separates_source X) rfl h' hclose hclose rfl).1

/-! ## Entries of an object -/

/-- what can stand between the commas of an object: a property, a spread of expressions in parentheses, which gives the
last of them, or an expression alone -/
inductive Entry where
  | property (key : List QuotedPart) (value : Text)
  | spread (operands : List Text)
  | alone (e : Text)
  deriving DecidableEq, Repr

/-- `ReadsEntry X t entry`: a text is this entry -/
inductive ReadsEntry (X : ListGrammar) : Text → Entry → Prop
  | property {body l k value : Text} {key : List QuotedPart} (hkey : ReadsString '\'' (body ++ ['\'']) key [])
      (hl : Spacing l) (hk : Spacing k) (hvalue : X.Source value) :
      ReadsEntry X ('\'' :: (body ++ '\'' :: (l ++ ':' :: (k ++ value)))) (.property key value)
  | spread {l row : Text} {operands : List Text} (hl : Spacing l) (hrow : Row (IsSource X) row operands) :
      ReadsEntry X ('.' :: '.' :: '.' :: (l ++ '(' :: (row ++ [')']))) (.spread operands)
  | alone {e : Text} (he : X.Source e) : ReadsEntry X e (.alone e)

/-- `ReadsEntries X t entries rest`: behind an opening brace, `t` starts with the entries and a closing brace, and goes on
with `rest` -/
inductive ReadsEntries (X : ListGrammar) : Text → List Entry → Text → Prop
  | none {l rest : Text} (hl : Spacing l) : ReadsEntries X (l ++ '}' :: rest) [] rest
  | row {t s rest : Text} {entries : List Entry} (h : Row (ReadsEntry X) t entries) (hs : Closes '}' s rest) :
      ReadsEntries X (t ++ s) entries rest

/-- the same for an object: an expression alone has to be one that is a member by itself -/
def ReadsObject (X : ListGrammar) (t : Text) (members : List Entry) (rest : Text) : Prop :=
  ReadsEntries X t members rest ∧ ∀ e, .alone e ∈ members → X.Alone e

namespace ReadsEntry

variable {t t' s s' : Text} {entry entry' : Entry}

/-- entries with a key in quotes, and spreads, start as members do -/
theorem startsMember (h : ReadsEntry X t entry) (hne : ∀ e, entry ≠ .alone e) (s : Text) : StartsMember (t ++ s) := by
  cases h with
  | property hkey hl =>
    simp only [List.cons_append, List.append_assoc]
    exact .property hkey.stringBody hl
  | spread => exact .spread
  | alone => exact absurd rfl (hne _)

theorem starts (s : Text) (h : ReadsEntry X t entry) : StartsToken (t ++ s) := by
  cases h with
  | property => exact startsToken_quote _
  | spread => exact startsToken_dot _
  | alone he => exact X.starts s he

theorem ends (h : ReadsEntry X t entry) (h' : ReadsEntry X t' entry') (hs : Delimits s) (hs' : Delimits s')
    (heq : t ++ s = t' ++ s') : entry = entry' ∧ s = s' := by
  cases h with
  | @property body l k value key hkey hl hk hvalue =>
    cases h' with
    | @property body' l' k' value' key' hkey' hl' hk' hvalue' =>
      simp only [List.cons_append, List.append_assoc, List.cons.injEq, true_and] at heq
      obtain rfl := hkey.stringBody.unique (by decide) hkey'.stringBody heq
      have hcolon : ∀ u : Text, StartsToken (':' :: u) := startsToken_cons (by decide) (by decide)
      have hrest := (List.cons.inj (List.append_cancel_left heq)).2
      obtain ⟨_, hrest⟩ := hl.unique hl' (hcolon _) (hcolon _) hrest
      obtain ⟨_, hrest⟩ := hk.unique hk' (X.starts _ hvalue) (X.starts _ hvalue') (List.cons.inj hrest).2
      obtain rfl := X.separates hvalue hvalue' hs hs' hrest
      exact ⟨by rw [(hkey.unique (by decide) hkey').1], List.append_cancel_left hrest⟩
    | spread => cases (List.cons.inj heq).1
    | alone he => exact absurd (heq ▸ startsMember (.property hkey hl hk hvalue) nofun s) (X.apart he hs')
  | @spread l row operands hl hrow =>
    cases h' with
    | property => cases (List.cons.inj heq).1
    | @spread l' row' operands' hl' hrow' =>
      simp only [List.cons_append, List.nil_append, List.append_assoc, List.cons.injEq, true_and] at heq
      have hopen : ∀ u : Text, StartsToken ('(' :: u) := startsToken_cons (by decide) (by decide)
      obtain ⟨_, hrest⟩ := hl.unique hl' (hopen _) (hopen _) heq
      have hclose (u : Text) : Closes ')' (')' :: u) u := .bare
      obtain ⟨rfl, hbehind⟩ := hrow.unique (separates_source X) rfl hrow' (hclose s) (hclose s') (List.cons.inj hrest).2
      exact ⟨rfl, hbehind⟩
    | alone he => exact absurd (heq ▸ startsMember (.spread hl hrow) nofun s) (X.apart he hs')
  | @alone e he =>
    cases h' with
    | property hkey hl hk hvalue =>
      exact absurd (heq ▸ startsMember (.property hkey hl hk hvalue) nofun s') (X.apart he hs)
    | spread hl hrow => exact absurd (heq ▸ startsMember (.spread hl hrow) nofun s') (X.apart he hs)
    | alone he' =>
      obtain rfl := X.separates he he' hs hs' heq
      exact ⟨rfl, List.append_cancel_left heq⟩

end ReadsEntry

/-- entries end at commas and closing brackets -/
theorem separates_entry (X : ListGrammar) : Separates (ReadsEntry X) where
  starts s h := h.starts s
  opens h hc heq := by
    cases h with
    | property =>
      rw [← (List.cons.inj heq).1] at hc
      cases hc
    | spread =>
      rw [← (List.cons.inj heq).1] at hc
      cases hc
    | alone he => exact (separates_source X).opens ⟨he, rfl⟩ hc heq
  ends := ReadsEntry.ends

/-- **The entries of an object are read in one way**, and the object ends at one place. -/
theorem ReadsEntries.unique {t rest rest' : Text} {entries entries' : List Entry} (h : ReadsEntries X t entries rest)
    (h' : ReadsEntries X t entries' rest') : entries = entries' ∧ rest = rest' := by
  have hbrace (u : Text) : StartsToken ('}' :: u) := startsToken_closing rfl u
  have hX := separates_entry X
  -- where the object closes, no row starts
  have hclosed {l u v w : Text} {es : List Entry} (hl : Spacing l) (hrow : Row (ReadsEntry X) u es) :
      u ++ v ≠ l ++ '}' :: w := by
    intro heq
    have hcloses : Closes '}' (',' :: (u ++ v)) w := by
      rw [heq]
      exact .comma hl
    exact hrow.not_closes hX rfl hcloses
  cases h with
  | @none l _ hl =>
    generalize hu : l ++ '}' :: rest = u at h'
    cases h' with
    | none hl' =>
      obtain ⟨_, hrest⟩ := hl.unique hl' (hbrace _) (hbrace _) hu
      exact ⟨rfl, (List.cons.inj hrest).2⟩
    | row hrow => exact absurd hu.symm (hclosed hl hrow)
  | @row t s _ _ hrow hs =>
    generalize hu : t ++ s = u at h'
    cases h' with
    | none hl' => exact absurd hu (hclosed hl' hrow)
    | row hrow' hs' => exact hrow.unique hX rfl hrow' hs hs' hu

end TerseStyle.Script

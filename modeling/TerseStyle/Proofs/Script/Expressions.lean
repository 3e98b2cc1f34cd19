/-
Expressions as they stand in code: between spacing, and in front of what ends them. Which texts are expressions is left
open; what matters here is where one ends, and that it keeps its place in parentheses. Read are the places in which
generated code puts an expression: the test of a conditional one, and the members of an object.

Results:
- `IsClosed.trim`: what is one expression between spacing that needs no blanks at its end stays one when it is trimmed.
- `ReadsConditional.unique`, `ReadsMembers.unique`: conditional expressions and objects are read in one way.
-/
import Mathlib.Data.List.Forall2
import TerseStyle.Proofs.Script.Spacing
import TerseStyle.Proofs.Script.Quotation

namespace TerseStyle.Script

theorem startsToken_closing {c : Char} (h : charKind c = .closing) (t : Text) : StartsToken (c :: t) := by
  have hc : isGap c = false ∧ c ≠ '/' := by
    unfold charKind at h
    split at h <;> first | decide | cases h
  exact startsToken_cons hc.1 hc.2 t

/-! ## Where expressions end -/

/-- a text that starts with a member of an object: a quoted key and a colon, or a spread -/
inductive StartsMember : Text → Prop
  | property {body k t : Text} (hbody : StringBody '\'' body) (hk : Spacing k) :
      StartsMember ('\'' :: (body ++ '\'' :: (k ++ ':' :: t)))
  | spread {t : Text} : StartsMember ('.' :: '.' :: '.' :: t)

/-- a text that can stand behind an expression: nothing, a comment to the end of the text, a closing bracket, or a comma
with another member or the end of an object behind it; spacing in front of each -/
inductive Stops : Text → Prop
  | nothing {l : Text} (hl : Spacing l) : Stops l
  | comment {l body : Text} (hl : Spacing l) (hbody : ∀ d ∈ body, isLineBreak d = false) :
      Stops (l ++ '/' :: '/' :: body)
  | closing {l t : Text} {c : Char} (hl : Spacing l) (hc : charKind c = .closing) : Stops (l ++ c :: t)
  | comma {l k t : Text} (hl : Spacing l) (hk : Spacing k) (ht : StartsMember t ∨ t.head? = some '}') :
      Stops (l ++ ',' :: (k ++ t))

/-- the expressions of a script language that are no sequences, each from its first to its last token -/
structure ExpressionGrammar where
  Source : Text → Prop
  /-- no blank stands at either end -/
  edges {e : Text} : Source e → (∀ c ∈ e.head?, isBlank c = false) ∧ ∀ c ∈ e.getLast?, isBlank c = false
  /-- there is a first token, which is no spacing -/
  starts {e : Text} (t : Text) : Source e → StartsToken (e ++ t)
  /-- an expression ends at one place -/
  ends {e e' s t : Text} : Source e → Source e' → Stops s → Stops t → e ++ s = e' ++ t → e = e'
  /-- an expression in parentheses can be the test of a conditional one that gives a string or nothing -/
  conditional {e l k body : Text} {parts : List QuotedPart} : Source e → Spacing l → Spacing k →
    ReadsString '\'' (body ++ ['\'']) parts [] →
    Source ("(".toList ++ (l ++ (e ++ k)) ++ ")?('".toList ++ body ++ "'):''".toList)

namespace ExpressionGrammar

variable {X : ExpressionGrammar} {e e' k k' l l' s t : Text}

theorem ne_nil (he : X.Source e) : e ≠ [] := by
  rintro rfl
  have h := (X.starts [' '] he).head ' ' rfl
  exact absurd h (by decide)

/-- spacing, an expression and what stands behind it are told apart in one way -/
theorem parts_unique (he : X.Source e) (he' : X.Source e') (hl : Spacing l) (hl' : Spacing l') (hs : Stops s)
    (ht : Stops t) (h : l ++ (e ++ s) = l' ++ (e' ++ t)) : l = l' ∧ e = e' ∧ s = t := by
  obtain ⟨rfl, hrest⟩ := hl.unique hl' (X.starts s he) (X.starts t he') h
  obtain rfl := X.ends he he' hs ht hrest
  exact ⟨rfl, rfl, List.append_cancel_left hrest⟩

end ExpressionGrammar

/-! ## Expressions between spacing -/

variable {X : ExpressionGrammar} {e e' k l s t : Text}

/-- a text is one expression, with spacing around it -/
def IsWritten (X : ExpressionGrammar) (t e : Text) : Prop :=
  ∃ lead trail, t = lead ++ (e ++ trail) ∧ Spacing lead ∧ X.Source e ∧ Spacing trail

/-- a text is one expression, with spacing around it that needs no blanks at its end: it does not end with a comment that
runs to the end of its line -/
def IsClosed (X : ExpressionGrammar) (t e : Text) : Prop :=
  ∃ lead trail, t = lead ++ (e ++ trail) ∧ Spacing lead ∧ X.Source e ∧ Spacing trail ∧ Spacing (trimRight trail)

theorem IsClosed.written (h : IsClosed X t e) : IsWritten X t e := by
  obtain ⟨lead, trail, heq, hlead, he, htrail, _⟩ := h
  exact ⟨lead, trail, heq, hlead, he, htrail⟩

theorem isClosed_source (he : X.Source e) : IsClosed X e e :=
  ⟨[], [], (List.append_nil e).symm, .nil, he, .nil, .nil⟩

/-- trimming takes blanks of the spacing around an expression -/
theorem trim_written (he : X.Source e) (lead trail : Text) :
    Text.trim (lead ++ (e ++ trail)) = Text.trimLeft lead ++ (e ++ trimRight trail) :=
  trim_around (X.ne_nil he) (X.edges he).1 (X.edges he).2 lead trail

theorem IsClosed.trim (h : IsClosed X t e) : IsClosed X (Text.trim t) e := by
  obtain ⟨lead, trail, rfl, hlead, he, _, htrail⟩ := h
  refine ⟨Text.trimLeft lead, trimRight trail, trim_written he lead trail, hlead.trimLeft, he, htrail, ?_⟩
  rwa [trimRight_trimRight]

/-- a closing bracket is no spacing -/
theorem not_spacing_closing (hl : Spacing l) {c : Char} (hc : charKind c = .closing) (t : Text) :
    ¬ Spacing (l ++ c :: t) := by
  intro h
  have heq := (h.unique hl startsToken_nil (startsToken_closing hc t) (List.append_nil _)).2
  cases heq

/-- the texts that can stand in an interpolation -/
def ExpressionGrammar.interpolations (X : ExpressionGrammar) : ExpressionSyntax where
  Complete t := ∃ e, IsClosed X t e
  closed {t s} h h' := by
    obtain ⟨e, lead, trail, rfl, hlead, he, htrail, _⟩ := h
    obtain ⟨e', lead', trail', heq, hlead', he', htrail', _⟩ := h'
    rw [List.append_assoc, List.append_assoc] at heq
    obtain ⟨_, _, hbehind⟩ := X.parts_unique he he' hlead hlead' (.closing htrail rfl) (.nothing htrail') heq
    exact not_spacing_closing htrail rfl s (hbehind ▸ htrail')
  trimmed h := by
    obtain ⟨e, he⟩ := h
    exact ⟨e, he.trim⟩
  conditional h hbody := by
    obtain ⟨e, lead, trail, rfl, hlead, he, htrail, _⟩ := h
    exact ⟨_, isClosed_source (X.conditional he hlead htrail hbody)⟩

/-! ## Conditional expressions -/

theorem ReadsString.stringBody {body : Text} {parts : List QuotedPart}
    (h : ReadsString '\'' (body ++ ['\'']) parts []) : StringBody '\'' body := by
  obtain ⟨body', heq, hbody⟩ := h.body (.inl rfl)
  rwa [List.append_cancel_right heq]

/-- `ReadsConditional X t test parts`: a text is a conditional expression with a test in parentheses, which gives the
string that stands for `parts`, or the empty one -/
inductive ReadsConditional (X : ExpressionGrammar) : Text → (test : Text) → List QuotedPart → Prop
  | intro {l k test body : Text} {parts : List QuotedPart} (hl : Spacing l) (htest : X.Source test) (hk : Spacing k)
      (hbody : ReadsString '\'' (body ++ ['\'']) parts []) :
      ReadsConditional X ("(".toList ++ (l ++ (test ++ k)) ++ ")?('".toList ++ body ++ "'):''".toList) test parts

/-- conditional expressions are told apart as their tests and strings are -/
theorem conditional_unique {body body' : Text} (hl : Spacing l) (hl' : Spacing l') (hk : Spacing k) (hk' : Spacing k')
    (hstart : ∀ u, StartsToken (e ++ u)) (hstart' : ∀ u, StartsToken (e' ++ u))
    (hends : ∀ u u', Stops u → Stops u' → e ++ u = e' ++ u' → e = e') (hbody : StringBody '\'' body)
    (hbody' : StringBody '\'' body')
    (h : "(".toList ++ (l ++ (e ++ k)) ++ ")?('".toList ++ body ++ "'):''".toList ++ s =
      "(".toList ++ (l' ++ (e' ++ k')) ++ ")?('".toList ++ body' ++ "'):''".toList ++ t) :
    l = l' ∧ e = e' ∧ k = k' ∧ body = body' := by
  simp only [String.reduceToList, List.cons_append, List.nil_append, List.append_assoc, List.cons.injEq, true_and] at h
  obtain ⟨rfl, hrest⟩ := hl.unique hl' (hstart _) (hstart' _) h
  obtain rfl := hends _ _ (.closing hk rfl) (.closing hk' rfl) hrest
  have hbehind := List.append_cancel_left hrest
  obtain ⟨rfl, hclosing⟩ := hk.unique hk' (startsToken_closing rfl _) (startsToken_closing rfl _) hbehind
  simp only [List.cons.injEq, true_and] at hclosing
  exact ⟨rfl, rfl, rfl, hbody.unique (by decide) hbody' hclosing⟩

theorem ReadsConditional.unique {test test' : Text} {ps qs : List QuotedPart} (h : ReadsConditional X t test ps)
    (h' : ReadsConditional X t test' qs) : test = test' ∧ ps = qs := by
  obtain ⟨hl, htest, hk, hbody⟩ := h
  rename_i l k body
  generalize heq : "(".toList ++ (l ++ (test ++ k)) ++ ")?('".toList ++ body ++ "'):''".toList = u at h'
  obtain ⟨hl', htest', hk', hbody'⟩ := h'
  obtain ⟨_, rfl, _, rfl⟩ := conditional_unique hl hl' hk hk' (fun u => X.starts u htest) (fun u => X.starts u htest')
    (fun _ _ hu hu' => X.ends htest htest' hu hu') hbody.stringBody hbody'.stringBody (congrArg (· ++ []) heq)
  exact ⟨rfl, (hbody.unique (by decide) hbody').1⟩

/-! ## Objects -/

/-- a member of an object -/
inductive Member where
  | property (key : List QuotedPart) (value : Text)
  | spread (operand : Text)
  deriving DecidableEq, Repr

/-- `ReadsMember X t m`: a text is the member `m`, a quoted key with a value, or a spread of an expression in
parentheses -/
inductive ReadsMember (X : ExpressionGrammar) : Text → Member → Prop
  | property {body l k value : Text} {key : List QuotedPart} (hkey : ReadsString '\'' (body ++ ['\'']) key [])
      (hl : Spacing l) (hk : Spacing k) (hvalue : X.Source value) :
      ReadsMember X ('\'' :: (body ++ '\'' :: (l ++ ':' :: (k ++ value)))) (.property key value)
  | spread {l k m operand : Text} (hl : Spacing l) (hk : Spacing k) (hoperand : X.Source operand) (hm : Spacing m) :
      ReadsMember X ('.' :: '.' :: '.' :: (l ++ '(' :: (k ++ (operand ++ (m ++ [')']))))) (.spread operand)

/-- `ReadsMembers X t ms rest`: behind an opening brace, `t` starts with the members `ms` and a closing brace, and goes
on with `rest` -/
inductive ReadsMembers (X : ExpressionGrammar) : Text → List Member → Text → Prop
  | close {l rest : Text} (hl : Spacing l) : ReadsMembers X (l ++ '}' :: rest) [] rest
  | last {l k t rest : Text} {m : Member} (hl : Spacing l) (hm : ReadsMember X t m) (hk : Spacing k) :
      ReadsMembers X (l ++ (t ++ (k ++ '}' :: rest))) [m] rest
  | next {l k t more rest : Text} {m : Member} {ms : List Member} (hl : Spacing l) (hm : ReadsMember X t m)
      (hk : Spacing k) (h : ReadsMembers X more ms rest) :
      ReadsMembers X (l ++ (t ++ (k ++ ',' :: more))) (m :: ms) rest

theorem startsToken_quote (t : Text) : StartsToken ('\'' :: t) := startsToken_cons (by decide) (by decide) t

theorem startsToken_dot (t : Text) : StartsToken ('.' :: t) := startsToken_cons (by decide) (by decide) t

namespace ReadsMember

theorem startsMember {m : Member} (h : ReadsMember X t m) (s : Text) : StartsMember (t ++ s) := by
  cases h with
  | property hkey hl hk hvalue =>
    simp only [List.cons_append, List.append_assoc]
    exact .property hkey.stringBody hl
  | spread => exact .spread

end ReadsMember

theorem StartsMember.token (h : StartsMember t) : StartsToken t := by
  cases h with
  | property => exact startsToken_quote _
  | spread => exact startsToken_dot _

/-- a member ends at one place, and is read in one way -/
theorem ReadsMember.unique {m m' : Member} {t' s s' : Text} (h : ReadsMember X t m) (h' : ReadsMember X t' m')
    (hs : Stops s) (hs' : Stops s') (heq : t ++ s = t' ++ s') : m = m' ∧ s = s' := by
  cases h with
  | @property body l k value key hkey hl hk hvalue =>
    cases h' with
    | @property body' l' k' value' key' hkey' hl' hk' hvalue' =>
      simp only [List.cons_append, List.append_assoc, List.cons.injEq, true_and] at heq
      obtain rfl := hkey.stringBody.unique (by decide) hkey'.stringBody heq
      have hcolon : ∀ u : Text, StartsToken (':' :: u) := startsToken_cons (by decide) (by decide)
      have hrest := (List.cons.inj (List.append_cancel_left heq)).2
      obtain ⟨_, hrest⟩ := hl.unique hl' (hcolon _) (hcolon _) hrest
      obtain ⟨_, rfl, rfl⟩ := X.parts_unique hvalue hvalue' hk hk' hs hs' (List.cons.inj hrest).2
      exact ⟨by rw [(hkey.unique (by decide) hkey').1], rfl⟩
    | spread => cases (List.cons.inj heq).1
  | @spread l k m operand hl hk hoperand hm =>
    cases h' with
    | property => cases (List.cons.inj heq).1
    | @spread l' k' m' operand' hl' hk' hoperand' hm' =>
      simp only [List.cons_append, List.nil_append, List.append_assoc, List.cons.injEq, true_and] at heq
      have hopen : ∀ u : Text, StartsToken ('(' :: u) := startsToken_cons (by decide) (by decide)
      obtain ⟨_, hrest⟩ := hl.unique hl' (hopen _) (hopen _) heq
      obtain ⟨_, rfl, hbehind⟩ :=
        X.parts_unique hoperand hoperand' hk hk' (.closing hm rfl) (.closing hm' rfl) (List.cons.inj hrest).2
      obtain ⟨_, hrest⟩ := hm.unique hm' (startsToken_closing rfl _) (startsToken_closing rfl _) hbehind
      exact ⟨rfl, (List.cons.inj hrest).2⟩

namespace ReadsMembers

variable {ms ns : List Member} {rest rest' : Text}

/-- behind the comma that ends a member, there is another one or the end of the object -/
theorem stops (h : ReadsMembers X t ms rest) (hl : Spacing l) : Stops (l ++ ',' :: t) := by
  cases h with
  | close hk => exact .comma hl hk (.inr rfl)
  | last hk hm => exact .comma hl hk (.inl (hm.startsMember _))
  | next hk hm => exact .comma hl hk (.inl (hm.startsMember _))

/-- spacing in front of members does not matter -/
theorem behind (hk : Spacing k) (h : ReadsMembers X t ms rest) : ReadsMembers X (k ++ t) ms rest := by
  cases h with
  | close hl =>
    rw [← List.append_assoc]
    exact .close (hk.append hl)
  | last hl hm hk' =>
    rw [← List.append_assoc]
    exact .last (hk.append hl) hm hk'
  | next hl hm hk' h =>
    rw [← List.append_assoc]
    exact .next (hk.append hl) hm hk' h

/-- in front of a closing brace there are no members -/
theorem of_closed (hl : Spacing l) (h : ReadsMembers X (l ++ '}' :: rest) ns rest') : ns = [] ∧ rest' = rest := by
  have hbrace := startsToken_closing (c := '}') rfl rest
  generalize ht : l ++ '}' :: rest = t at h
  cases h with
  | close hl' =>
    obtain ⟨_, hrest⟩ := hl.unique hl' hbrace (startsToken_closing rfl _) ht
    exact ⟨rfl, (List.cons.inj hrest).2.symm⟩
  | last hl' hm | next hl' hm =>
    obtain ⟨_, hmember⟩ := hl.unique hl' hbrace (hm.startsMember _).token ht
    have hstart : StartsMember ('}' :: rest) := by
      rw [hmember]
      exact hm.startsMember _
    cases hstart

/-- where a member stands, that member is read, and then the end of the object or a comma and more members -/
theorem of_member {m : Member} (hl : Spacing l) (hm : ReadsMember X t m) (hs : Stops s)
    (h : ReadsMembers X (l ++ (t ++ s)) ns rest) :
    ∃ ns', ns = m :: ns' ∧ ∃ k, Spacing k ∧
      ((ns' = [] ∧ s = k ++ '}' :: rest) ∨ ∃ more, s = k ++ ',' :: more ∧ ReadsMembers X more ns' rest) := by
  have hstart := hm.startsMember s
  generalize hu : l ++ (t ++ s) = u at h
  cases h with
  | close hl' =>
    obtain ⟨_, hmember⟩ := hl.unique hl' hstart.token (startsToken_closing rfl _) hu
    rw [hmember] at hstart
    cases hstart
  | last hl' hm' hk =>
    obtain ⟨_, hmember⟩ := hl.unique hl' hstart.token (hm'.startsMember _).token hu
    obtain ⟨rfl, rfl⟩ := hm.unique hm' hs (.closing hk rfl) hmember
    exact ⟨[], rfl, _, hk, .inl ⟨rfl, rfl⟩⟩
  | next hl' hm' hk h =>
    obtain ⟨_, hmember⟩ := hl.unique hl' hstart.token (hm'.startsMember _).token hu
    obtain ⟨rfl, rfl⟩ := hm.unique hm' hs (h.stops hk) hmember
    exact ⟨_, rfl, _, hk, .inr ⟨_, rfl, h⟩⟩

/-- **Members are read in one way**, and end at one place. -/
theorem unique (h : ReadsMembers X t ms rest) (h' : ReadsMembers X t ns rest') : ms = ns ∧ rest = rest' := by
  have hbrace (u : Text) : StartsToken ('}' :: u) := startsToken_closing rfl u
  have hcomma : ∀ u : Text, StartsToken (',' :: u) := startsToken_cons (by decide) (by decide)
  induction h generalizing ns rest' with
  | close hl =>
    obtain ⟨rfl, rfl⟩ := of_closed hl h'
    exact ⟨rfl, rfl⟩
  | last hl hm hk =>
    obtain ⟨ns', rfl, k', hk', ⟨rfl, hrest⟩ | ⟨more, hrest, _⟩⟩ := of_member hl hm (.closing hk rfl) h'
    · obtain ⟨_, hrest⟩ := hk.unique hk' (hbrace _) (hbrace _) hrest
      exact ⟨rfl, (List.cons.inj hrest).2⟩
    · cases (List.cons.inj (hk.unique hk' (hbrace _) (hcomma _) hrest).2).1
  | next hl hm hk h ih =>
    obtain ⟨ns', rfl, k', hk', ⟨rfl, hrest⟩ | ⟨more, hrest, hmore⟩⟩ := of_member hl hm (h.stops hk) h'
    · cases (List.cons.inj (hk.unique hk' (hcomma _) (hbrace _) hrest).2).1
    · obtain ⟨_, hrest⟩ := hk.unique hk' (hcomma _) (hcomma _) hrest
      obtain ⟨_, rfl⟩ := List.cons.inj hrest
      obtain ⟨rfl, rfl⟩ := ih hmore
      exact ⟨rfl, rfl⟩

/-- members written one behind the other, each with spacing behind it, and a comma and a space between each two -/
theorem intercalate {ws : List Text} {m : Member} (ms : List Member) {w : Text}
    (h : List.Forall₂ (fun w m => ∃ t k, w = t ++ k ∧ ReadsMember X t m ∧ Spacing k) (w :: ws) (m :: ms)) :
    ReadsMembers X (", ".toList.intercalate (w :: ws) ++ '}' :: rest) (m :: ms) rest := by
  induction ws generalizing w m ms with
  | nil =>
    obtain ⟨hw, hnil⟩ := List.forall₂_cons.mp h
    obtain rfl := List.forall₂_nil_left_iff.mp hnil
    obtain ⟨t, k, rfl, hm, hk⟩ := hw
    rw [List.intercalate_singleton, List.append_assoc]
    exact .last .nil hm hk
  | cons w' ws ih =>
    obtain ⟨hw, hrest⟩ := List.forall₂_cons.mp h
    obtain ⟨t, k, rfl, hm, hk⟩ := hw
    cases hrest with
    | @cons _ m' _ ms' hw' hrest =>
      have hmore := ih ms' (.cons hw' hrest)
      have hspace : Spacing [' '] := .gap (by decide) .nil
      rw [List.intercalate_cons_cons]
      simp only [List.append_assoc]
      exact .next .nil hm hk (hmore.behind hspace)

end ReadsMembers

end TerseStyle.Script

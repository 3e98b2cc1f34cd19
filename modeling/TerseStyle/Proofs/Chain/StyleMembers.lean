/-
The members of a style object. The argument of a call is a row of expressions; a spread puts the row into parentheses, a
property puts it behind its key as it is. So a spread is one member whatever was written in its call, and a property is
one only if that was a single expression: each further one stands among the members of the object by itself.

Results:
- `Adds.written`: a style is written as the row of entries that it adds.
- `styleObject_entries`: the object of some styles has the entries that they add, and no others.
- `compile_members`: an object has one member to a style exactly where each property is written with one expression.
-/
import TerseStyle.Proofs.Chain.Embedding
import TerseStyle.Proofs.Script.Rows
import TerseStyle.Script.Standard

namespace TerseStyle.Chain

open Script

variable {X : ListGrammar} {d : Declaration} {ds : List Declaration} {entries : List Entry} {added : List (List Entry)}

/-! ## What a style adds -/

/-- `Adds X d entries`: written as a row of expressions, a style adds these entries to its object. A spread is one entry
with all of them. A property has the first one for its value, and the others stand alone behind it; its text is trimmed,
which has to leave the row as it is. -/
inductive Adds (X : ListGrammar) : Declaration → List Entry → Prop
  | property {name value e : Text} {es : List Text} (h : Row (IsSource X) value (e :: es))
      (htrim : Row (IsSource X) (Text.trim value) (e :: es)) :
      Adds X (.property name value) (.property (plainParts name) e :: es.map .alone)
  | spread {expression : Text} {es : List Text} (h : Row (IsSource X) expression es) :
      Adds X (.spread expression) [.spread es]

namespace Adds

/-- a style is written as the entries that it adds -/
theorem written (h : Adds X d entries)
    (hkey : ∀ name value, d = .property name value → ∀ c ∈ name, isKeyChar c = true) :
    Row (ReadsEntry X) d.trimmed.written entries := by
  cases h with
  | @property name value e es _ htrim =>
    have hname := readsString_key (hkey name value rfl)
    refine htrim.behind (p := '\'' :: name ++ "': ".toList) ?_ fun t c ht => ?_
    · rintro l t hl ⟨ht, rfl⟩
      have hspace : Spacing (' ' :: l) := .gap (by decide) hl
      have := ReadsEntry.property hname .nil hspace ht
      simpa using this
    · obtain ⟨ht, rfl⟩ := ht
      exact .alone ht
  | @spread expression es h =>
    have := Row.one .nil (ReadsEntry.spread .nil h) .nil
    simpa [Declaration.trimmed, Declaration.written] using this

theorem length_pos (h : Adds X d entries) : 0 < entries.length := by
  cases h <;> exact Nat.succ_pos _

/-- a style adds a single entry unless it is a property that is written with several expressions -/
theorem length_eq_one_iff (h : Adds X d entries) :
    entries.length = 1 ↔ ∀ name value, d = .property name value → ∃ e, IsWritten X.toExpressionGrammar value e := by
  cases h with
  | @property name value e es h =>
    constructor
    · intro hlength name' value' hd
      cases hd
      obtain rfl : es = [] := by simpa using hlength
      exact ⟨e, row_singleton_iff.1 h⟩
    · intro hone
      obtain ⟨e', he'⟩ := hone name value rfl
      cases row_source_unique h (row_singleton_iff.2 he')
      rfl
  | spread =>
    refine ⟨fun _ name value hd => ?_, fun _ => rfl⟩
    cases hd

end Adds

/-! ## What styles add together -/

/-- styles of which each adds one entry add one entry to a style, in order -/
theorem adds_single (h : List.Forall₂ (Adds X) ds added) (hone : ∀ es ∈ added, es.length = 1) :
    List.Forall₂ (fun d entry => Adds X d [entry]) ds added.flatten := by
  induction h with
  | nil => exact .nil
  | @cons d es ds added hd _ ih =>
    obtain ⟨hes, hadded⟩ := List.forall_mem_cons.1 hone
    obtain ⟨entry, rfl⟩ := List.length_eq_one_iff.1 hes
    exact .cons hd (ih hadded)

/-- styles add at least an entry each, and more if one of them does -/
theorem length_added (h : List.Forall₂ (Adds X) ds added) :
    ds.length ≤ added.flatten.length ∧ ((∃ es ∈ added, es.length ≠ 1) → ds.length < added.flatten.length) := by
  induction h with
  | nil => simp
  | @cons d es ds added hd _ ih =>
    have hpos := hd.length_pos
    rw [List.flatten_cons, List.length_append, List.length_cons]
    refine ⟨by omega, ?_⟩
    rintro ⟨fs, hmem, hne⟩
    rcases List.mem_cons.1 hmem with rfl | hmem
    · omega
    · have := ih.2 ⟨fs, hmem, hne⟩
      omega

theorem exists_adds (h : List.Forall₂ (fun d entry => Adds X d [entry]) ds entries) {entry : Entry}
    (hmem : entry ∈ entries) : ∃ d, Adds X d [entry] := by
  induction h with
  | nil => cases hmem
  | @cons d _ _ _ hd _ ih =>
    rcases List.mem_cons.1 hmem with rfl | hmem
    · exact ⟨d, hd⟩
    · exact ih hmem

theorem forall_length_eq_one_iff (h : List.Forall₂ (Adds X) ds added) :
    (∀ es ∈ added, es.length = 1) ↔
      ∀ name value, .property name value ∈ ds → ∃ e, IsWritten X.toExpressionGrammar value e := by
  induction h with
  | nil => simp
  | @cons d es ds added hd _ ih =>
    rw [List.forall_mem_cons, hd.length_eq_one_iff, ih]
    constructor
    · rintro ⟨hfirst, hrest⟩ name value hmem
      rcases List.mem_cons.1 hmem with heq | hmem
      · exact hfirst name value heq.symm
      · exact hrest name value hmem
    · intro hall
      refine ⟨fun name value heq => ?_, fun name value hmem => hall name value (List.mem_cons_of_mem d hmem)⟩
      rw [heq] at hall
      exact hall name value List.mem_cons_self

/-- the object of some styles has the entries that they add, and no others -/
theorem styleObject_entries (h : List.Forall₂ (Adds X) ds added)
    (hkeys : ∀ name value, .property name value ∈ ds → ∀ c ∈ name, isKeyChar c = true) {inner : Text}
    (hcode : styleObject? (ds.map Declaration.trimmed) = some ('{' :: inner)) (members : List Entry) (rest : Text) :
    ReadsEntries X inner members rest ↔ members = added.flatten ∧ rest = [] := by
  have hwritten : List.Forall₂ (Row (ReadsEntry X)) ((ds.map Declaration.trimmed).map (·.written)) added :=
    forall₂_written h hkeys fun _ _ => Adds.written
  unfold styleObject? at hcode
  split at hcode
  · cases hcode
  · rename_i hne
    obtain rfl := (List.cons.inj (Option.some.inj hcode)).2
    have hrow := Row.intercalate (by simpa using hne) hwritten
    have hreads : ReadsEntries X (", ".toList.intercalate ((ds.map Declaration.trimmed).map (·.written)) ++ ['}'])
        added.flatten [] := .row hrow .bare
    constructor
    · intro hother
      exact hother.unique hreads
    · rintro ⟨rfl, rfl⟩
      exact hreads

/-- **The members of a style object.** Where a chain compiles to an object, and the calls of its styles hold rows of
expressions, the object is read in one way and up to its end: it has a spread for each call behind `$style`, in order, and
then the properties that have no class, each with the first expression of its call for a value, and each further one
standing alone behind it. It is an object only if these are members by themselves. So there is one member to a style where
each property is written with one expression, and nowhere else. -/
theorem compile_members (X : ListGrammar) {settings : Settings} {t code : Text} {compiled : Compiled}
    (h : (compile settings t).result = .ok compiled) (hcode : compiled.styleObject = some code) :
    ∃ m inner, Means settings.root (takeIcons settings.iconEscapes t).1 m ∧ code = '{' :: inner ∧
      ∀ added, List.Forall₂ (Adds X) (m.finish.styles settings.vocabulary) added →
        (∀ members rest, ReadsObject X inner members rest ↔
          members = added.flatten ∧ rest = [] ∧ ∀ e, .alone e ∈ members → X.Alone e) ∧
        ((∀ name value, .property name value ∈ m.finish.styles settings.vocabulary →
            ∃ e, IsWritten X.toExpressionGrammar value e) →
          ∃ members, ReadsObject X inner members [] ∧
            List.Forall₂ (fun d member => Adds X d [member]) (m.finish.styles settings.vocabulary) members) ∧
        ((∃ name value, .property name value ∈ m.finish.styles settings.vocabulary ∧
            ¬ ∃ e, IsWritten X.toExpressionGrammar value e) →
          ∀ members rest, ReadsObject X inner members rest →
            (m.finish.styles settings.vocabulary).length < members.length) := by
  rcases compile_cases settings t with ⟨arguments, fault, _, hresult⟩ | ⟨arguments, o, m, _, hm, ho, hcompile⟩
  · rw [hresult] at h
    cases h
  rw [hcompile] at h
  have hobject := ho.styleObject_eq hm.spreads h
  rw [hcode] at hobject
  obtain ⟨inner, rfl⟩ : ∃ inner, code = '{' :: inner := by
    unfold styleObject? at hobject
    split at hobject
    · cases hobject
    · exact ⟨_, Option.some.inj hobject⟩
  refine ⟨m, inner, hm, rfl, fun added hadded => ?_⟩
  have hreads (members : List Entry) (rest : Text) : ReadsObject X inner members rest ↔
      members = added.flatten ∧ rest = [] ∧ ∀ e, .alone e ∈ members → X.Alone e := by
    rw [ReadsObject, styleObject_entries hadded (fun name value => hm.styles_keys settings.vocabulary) hobject.symm,
      and_assoc]
  refine ⟨hreads, ?_, ?_⟩
  · intro hone
    have hsingle := adds_single hadded ((forall_length_eq_one_iff hadded).2 hone)
    refine ⟨added.flatten, (hreads _ _).2 ⟨rfl, rfl, fun e he => ?_⟩, hsingle⟩
    -- an expression alone is never the only entry of a style
    obtain ⟨d, hd⟩ := exists_adds hsingle he
    cases hd
  · rintro ⟨name, value, hmem, hseveral⟩ members rest hobject
    obtain ⟨rfl, _⟩ := (hreads _ _).1 hobject
    refine (length_added hadded).2 ?_
    by_contra hnone
    have hone : ∀ es ∈ added, es.length = 1 := fun es hes => by_contra fun hne => hnone ⟨es, hes, hne⟩
    exact hseveral ((forall_length_eq_one_iff hadded).1 hone name value hmem)

example : (match (Language.ofFile "a.tsx".toList).expression "\x7b'width': a, b\x7d".toList with
    | .ok (.plain .object members, []) => members.length
    | _ => 0) = 2 := by decide +kernel

/-! ## Lists of paths -/

/-- a path ends at a comma or a closing bracket, whatever comes then -/
theorem PathSource.separates {e e' s t : Text} (h : PathSource e) (h' : PathSource e') (hs : Delimits s)
    (ht : Delimits t) (heq : e ++ s = e' ++ t) : e = e' := by
  have hpath {u : Text} (hu : Delimits u) : ∀ c ∈ u.head?, isPathChar c = false := by
    obtain ⟨hl, hc⟩ := hu
    refine isPathChar_of_spacing hl ?_
    rintro _ ⟨⟩
    rcases hc with rfl | hc
    · decide
    · exact isPathChar_of_closing hc
  cases h with
  | path hne he =>
    cases h' with
    | path _ he' => rw [← takeWhile_path he (hpath hs), heq, takeWhile_path he' (hpath ht)]
    | conditional =>
      simp only [List.append_assoc] at heq
      exact absurd heq (path_ne_paren hne he)
  | conditional he hl hk hbody =>
    cases h' with
    | path hne he' =>
      simp only [List.append_assoc] at heq
      exact absurd heq.symm (path_ne_paren hne he')
    | conditional he' hl' hk' hbody' =>
      obtain ⟨rfl, rfl, rfl, rfl⟩ := conditional_unique hl hl' hk hk' (fun u => he.starts u) (fun u => he'.starts u)
        (fun _ _ hu hu' => he.ends he' hu hu') hbody.stringBody hbody'.stringBody heq
      rfl

/-- a path starts with a character of its own or with a parenthesis -/
theorem PathSource.head {e : Text} (h : PathSource e) : ∃ c rest, e = c :: rest ∧ (isPathChar c = true ∨ c = '(') := by
  cases h with
  | path hne he =>
    obtain ⟨c, rest, rfl⟩ := List.exists_cons_of_ne_nil hne
    exact ⟨c, rest, rfl, .inl (he c List.mem_cons_self)⟩
  | conditional => exact ⟨'(', _, rfl, .inr rfl⟩

/-- a grammar of lists of paths that do not start with a dot; names alone are members of an object -/
def pathLists : ListGrammar where
  Source e := PathSource e ∧ e.head? ≠ some '.'
  Alone e := e ≠ [] ∧ ∀ c ∈ e, isNameChar c = true
  edges h := h.1.edges
  starts t h := h.1.starts t
  ends h h' hs ht heq := h.1.ends h'.1 hs ht heq
  conditional h hl hk hbody := ⟨.conditional h.1 hl hk hbody, by simp⟩
  separates h h' hs ht heq := h.1.separates h'.1 hs ht heq
  opens h c hc := by
    obtain ⟨d, rest, rfl, hd⟩ := h.1.head
    obtain rfl := Option.some.inj hc
    rintro hclosing
    rcases hd with hd | rfl
    · rw [isPathChar_of_closing hclosing] at hd
      cases hd
    · cases hclosing
  apart {e s} h _ hmember := by
    obtain ⟨c, rest, rfl, hc⟩ := h.1.head
    generalize hu : c :: rest ++ s = u at hmember
    cases hmember with
    | property =>
      obtain rfl := (List.cons.inj hu).1
      rcases hc with hc | hc
      · exact absurd hc (by decide)
      · cases hc
    | spread =>
      obtain rfl := (List.cons.inj hu).1
      exact h.2 rfl

theorem isSource_path {e : Text} (h : e ≠ [] ∧ (e.all isPathChar && e.head? ≠ some '.') = true) :
    IsSource pathLists e e := by
  obtain ⟨hne, h⟩ := h
  rw [Bool.and_eq_true, decide_eq_true_iff] at h
  exact ⟨⟨.path hne (List.all_eq_true.1 h.1), h.2⟩, rfl⟩

/-- two paths with a comma and a space between them -/
theorem row_pair {d e : Text} (hd : IsSource pathLists d d) (he : IsSource pathLists e e) :
    Row (IsSource pathLists) (d ++ ',' :: ' ' :: e) [d, e] := by
  have hspace : Spacing " ".toList := .gap (by decide) .nil
  have := Row.cons .nil hd .nil (Row.one hspace he .nil)
  simpa using this

theorem row_path {e : Text} (he : IsSource pathLists e e) : Row (IsSource pathLists) e [e] := by
  have := Row.one .nil he .nil
  simpa using this

/-- a chain with two expressions in the call of a spread -/
def spreadChain : Text := "SS.$style(x, y).width(size)".toList

/-- what it means -/
def spreadMeaning : Meaning :=
  ⟨[⟨"width".toList, false, some (.classify "size".toList)⟩], [.spread "x, y".toList]⟩

theorem means_spreadChain : Means boldSettings.root spreadChain spreadMeaning := by
  have hwidth : Spells [.access "width".toList, .call "size".toList] ".width(size)".toList :=
    Spells.nil.named_call (by decide) (balanced_of_flat (by decide) (by decide))
  refine ⟨[.access "$style".toList, .call "x, y".toList, .access "width".toList, .call "size".toList],
    ⟨[⟨"width".toList, false, some (.classify "size".toList)⟩], [.spread "x, y".toList], false, false, false, false⟩,
    .of_spells (List.all_eq_true.mp (by decide)) ?_, ?_, rfl⟩
  · exact hwidth.named_call (by decide) (balanced_of_flat (by decide) (by decide))
  · exact .access rfl (.literal rfl rfl (.access rfl (.gate rfl rfl rfl (by decide) .done)))

/-- a chain with two expressions in the call of a property -/
def pairedChain : Text := "SS.width(a, b)".toList

/-- what it means -/
def pairedMeaning : Meaning := ⟨[⟨"width".toList, false, some (.classify "a, b".toList)⟩], []⟩

theorem means_pairedChain : Means boldSettings.root pairedChain pairedMeaning := by
  refine ⟨[.access "width".toList, .call "a, b".toList],
    ⟨[⟨"width".toList, false, some (.classify "a, b".toList)⟩], [], false, false, false, false⟩,
    .of_spells (List.all_eq_true.mp (by decide)) ?_, ?_, rfl⟩
  · exact Spells.nil.named_call (by decide) (balanced_of_flat (by decide) (by decide))
  · exact .access rfl (.gate rfl rfl rfl (by decide) .done)

/-- two expressions in a spread are one member; behind the key of a property, the second one is a member of its own -/
theorem compile_members_pair :
    (∃ compiled inner, (compile boldSettings spreadChain).result = .ok compiled ∧
      compiled.styleObject = some ('{' :: inner) ∧ ReadsObject pathLists inner
        [.spread ["x".toList, "y".toList], .property (plainParts "width".toList) "size".toList] []) ∧
      ∃ compiled inner, (compile boldSettings pairedChain).result = .ok compiled ∧
        compiled.styleObject = some ('{' :: inner) ∧
        ReadsObject pathLists inner [.property (plainParts "width".toList) "a".toList, .alone "b".toList] [] ∧
        ∀ members rest, ReadsObject pathLists inner members rest → 1 < members.length := by
  constructor
  · have hcompile : (compile boldSettings spreadChain).result =
        .ok ⟨"\x60flex\x60".toList, some "\x7b...(x, y), 'width': size\x7d".toList, []⟩ := by decide +kernel
    obtain ⟨m, inner, hm, hcode, hread⟩ := compile_members pathLists hcompile rfl
    have hicons : (takeIcons boldSettings.iconEscapes spreadChain).1 = spreadChain := by decide +kernel
    rw [hicons] at hm
    obtain rfl := means_spreadChain.unique hm
    have hstyles : spreadMeaning.finish.styles boldSettings.vocabulary =
        [.spread "x, y".toList, .property "width".toList "size".toList] := by decide +kernel
    rw [hstyles] at hread
    have hsize := row_path (isSource_path (by decide : "size".toList ≠ [] ∧ _))
    have hpair := row_pair (isSource_path (by decide : "x".toList ≠ [] ∧ _))
      (isSource_path (by decide : "y".toList ≠ [] ∧ _))
    obtain ⟨hobject, -, -⟩ := hread _ (.cons (.spread hpair) (.cons (.property hsize hsize) .nil))
    exact ⟨_, inner, hcompile, congrArg some hcode, (hobject _ _).2 ⟨rfl, rfl, by simp⟩⟩
  · have hcompile : (compile boldSettings pairedChain).result =
        .ok ⟨"\x60flex\x60".toList, some "\x7b'width': a, b\x7d".toList, []⟩ := by decide +kernel
    obtain ⟨m, inner, hm, hcode, hread⟩ := compile_members pathLists hcompile rfl
    have hicons : (takeIcons boldSettings.iconEscapes pairedChain).1 = pairedChain := by decide +kernel
    rw [hicons] at hm
    obtain rfl := means_pairedChain.unique hm
    have hstyles : pairedMeaning.finish.styles boldSettings.vocabulary =
        [.property "width".toList "a, b".toList] := by decide +kernel
    rw [hstyles] at hread
    have hpair := row_pair (isSource_path (by decide : "a".toList ≠ [] ∧ _))
      (isSource_path (by decide : "b".toList ≠ [] ∧ _))
    obtain ⟨hobject, -, hmore⟩ := hread _ (.cons (.property hpair hpair) .nil)
    refine ⟨_, inner, hcompile, congrArg some hcode, (hobject _ _).2 ⟨rfl, rfl, ?_⟩, ?_⟩
    · intro e he
      obtain rfl : e = "b".toList := by simpa using he
      exact ⟨by decide, List.all_eq_true.1 (by decide)⟩
    · refine hmore ⟨"width".toList, "a, b".toList, List.mem_singleton.2 rfl, ?_⟩
      rintro ⟨e, he⟩
      cases row_source_unique hpair (row_singleton_iff.2 he)

end TerseStyle.Chain

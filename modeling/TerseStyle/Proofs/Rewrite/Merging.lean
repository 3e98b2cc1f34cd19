/-
A quoted class beside a chain. Its text is pasted with its quotes into the call that merges it with the classes of the
chain. An attribute may hold anything but its quote, while a string has no bare line ends and takes a backslash for the
start of an escape: the text is what the string gives if it has neither, and never if it has one.

Of the language, three things are used: a string that a call starts with is written there, what stands behind a string
does not depend on what is in it, and a template without expressions is an argument.

Results:
- `readGenerated_call_iff`: when a call with a pasted text is read as a call with a string that gives the text.
- `rewriteChain_merges_iff`: when a quoted class is merged as it stands.
-/
import TerseStyle.Proofs.Rewrite.Conservation
import TerseStyle.Proofs.Script.Pasting

namespace TerseStyle.Rewrite

open Script

variable {settings : Settings} {language : Language} {callee e : Node} {quote : Char} {function t : Text}

/-! ## Generated calls -/

/-- a call with a string, given as it is written, and one more argument -/
def stringCall (callee : Node) (w : Text) (e : Node) : Node :=
  .plain (.call false) [callee, .absent, .plain (.literal w) [], e]

/-- the empty string as it is written -/
def emptyString : Text := "\"\"".toList

/-- a language reads calls of a function that start with a string -/
structure ReadsCalls (language : Language) (function : Text) (callee : Node) : Prop where
  /-- the string is written where the arguments start -/
  string {quote : Char} {t w rest : Text} {e : Node} : quote = '\'' ∨ quote = '"' →
    language.expression (function ++ '(' :: quote :: t) = .ok (stringCall callee w e, rest) → w <+: quote :: t
  /-- what stands behind a string is read alike whatever is in it -/
  behind {w v t rest : Text} {e : Node} : IsPlainString w → IsPlainString v →
    language.expression (function ++ '(' :: (w ++ t)) = .ok (stringCall callee w e, rest) →
    language.expression (function ++ '(' :: (v ++ t)) = .ok (stringCall callee v e, rest)
  /-- a template without expressions is an argument -/
  template (s : Text) :
    language.expression (classCode function (some emptyString) ('\x60' :: (escapeTemplate s ++ ['\x60']))) =
      .ok (stringCall callee emptyString (.plain (.template [escapeTemplate s]) []), [])

theorem isPlainString_emptyString : IsPlainString emptyString :=
  ⟨'"', [], Or.inr rfl, by decide, by decide, rfl⟩

theorem readGenerated_ok_iff {code : Text} :
    readGenerated language code = .ok e ↔
      ∃ rest, language.expression code = .ok (e, rest) ∧ Text.isBlankOnly rest = true := by
  unfold readGenerated
  rcases language.expression code with n | ⟨e', rest⟩
  · exact ⟨nofun, fun ⟨_, h, _⟩ => nomatch h⟩
  · simp only
    constructor
    · intro h
      split at h
      · rename_i hblank
        cases h
        exact ⟨rest, rfl, hblank⟩
      · cases h
    · rintro ⟨_, ⟨⟩, hblank⟩
      rw [if_pos hblank]

theorem classCode_some (function w template : Text) :
    classCode function (some w) template = function ++ '(' :: (w ++ (", ".toList ++ template ++ [')'])) := by
  simp [classCode]

/-- strings that stand for what is between their quotes are exchanged -/
theorem ReadsCalls.readGenerated (h : ReadsCalls language function callee) {w v template : Text}
    (hw : IsPlainString w) (hv : IsPlainString v)
    (hread : readGenerated language (classCode function (some w) template) = .ok (stringCall callee w e)) :
    readGenerated language (classCode function (some v) template) = .ok (stringCall callee v e) := by
  obtain ⟨rest, hread, hblank⟩ := readGenerated_ok_iff.1 hread
  rw [classCode_some] at hread
  refine readGenerated_ok_iff.2 ⟨rest, ?_, hblank⟩
  rw [classCode_some]
  exact h.behind hw hv hread

/-- **What a call with a pasted text is read as.** -/
theorem readGenerated_call_iff (h : ReadsCalls language function callee) (hquote : quote = '\'' ∨ quote = '"')
    (ht : quote ∉ t) {w template : Text} :
    (StringValue w t ∧ readGenerated language (classCode function (some (quote :: (t ++ [quote]))) template) =
      .ok (stringCall callee w e)) ↔
    w = quote :: (t ++ [quote]) ∧ IsPlain t ∧
      readGenerated language (classCode function (some emptyString) template) = .ok (stringCall callee emptyString e) := by
  constructor
  · rintro ⟨hvalue, hread⟩
    obtain ⟨rest, hexpression, _⟩ := readGenerated_ok_iff.1 hread
    rw [classCode_some, List.cons_append, List.append_assoc, List.singleton_append] at hexpression
    obtain ⟨hw, hplain⟩ : w = quote :: (t ++ [quote]) ∧ IsPlain t := by
      have hstart := h.string hquote hexpression
      cases w with
      | nil => cases hvalue
      | cons x body =>
        obtain ⟨rfl, hbody⟩ := List.cons_prefix_cons.1 hstart
        obtain ⟨rfl, hplain⟩ := (stringValue_pasted_iff hquote ht hbody).1 hvalue
        exact ⟨rfl, hplain⟩
    subst hw
    exact ⟨rfl, hplain, h.readGenerated ⟨quote, t, hquote, ht, hplain, rfl⟩ isPlainString_emptyString hread⟩
  · rintro ⟨rfl, hplain, hread⟩
    exact ⟨stringValue_plain hquote hplain ht,
      h.readGenerated isPlainString_emptyString ⟨quote, t, hquote, ht, hplain, rfl⟩ hread⟩

/-! ## Elements -/

/-- a class in quotes beside a chain, which compiles, and no style -/
structure QuotedBeside (settings : Settings) (as : List Attribute) (compiled : Chain.Compiled) (quote : Char)
    (t : Text) : Prop where
  chain : ∃ a source, as.filter (isChain settings) = [a] ∧ expressionSource? a.value = some source ∧
    (Chain.compile settings source).result = .ok compiled
  noStyle : as.any (isNamed styleName) = false
  quoted : as.find? (isNamed className) = some (.named className (.quoted (quote :: (t ++ [quote]))))
  isQuote : quote = '\'' ∨ quote = '"'
  inside : quote ∉ t

/-- the styles of a chain are read -/
def ReadsStyles (language : Language) (compiled : Chain.Compiled) (styles : List Attribute) : Prop :=
  (compiled.styleObject = none ∧ styles = []) ∨ ∃ code e, compiled.styleObject = some code ∧
    readGenerated language code = .ok e ∧ styles = [expressionAttribute styleName e]

/-- the class is merged as it stands: a call with a string that gives its text and an expression takes its place -/
def MergesQuoted (settings : Settings) (language : Language) (callee : Node) (element : Text) (as : List Attribute)
    (before : Trace) (t : Text) (e : Node) (styles : List Attribute) : Prop :=
  ∃ w after, StringValue w t ∧ Ends (rewriteChain settings language element as) before
    (some (keptBy settings id as ++ expressionAttribute className (stringCall callee w e) :: styles)) after

variable {as others : List Attribute} {compiled : Chain.Compiled} {styles : List Attribute}
  {element : Text} {before : Trace}

theorem mergeCompiled_of_reads {classes : Node}
    (hclasses : readGenerated language (classCode settings.mergeFunction
      ((others.find? (isNamed className)).bind fun a => writtenSource? a.value) compiled.classTemplate) = .ok classes)
    (hstyles : ReadsStyles language compiled styles) :
    mergeCompiled settings language compiled others =
      .ok (others.eraseP (isNamed className) ++ expressionAttribute className classes :: styles) := by
  unfold mergeCompiled
  rw [takeFirst_eq]
  simp only
  rw [hclasses]
  rcases hstyles with ⟨hnone, rfl⟩ | ⟨code, e, hsome, hread, rfl⟩
  · rw [hnone]
    rfl
  · simp only [hsome, hread]
    rfl

theorem compileAttribute_of_ok {a : Attribute} {source : Text} (hsource : expressionSource? a.value = some source)
    (hcompile : (Chain.compile settings source).result = .ok compiled) (before : Trace) :
    ∃ after, Ends (compileAttribute settings a) before compiled after := by
  refine ⟨{ before with notices := before.notices ++ (Chain.compile settings source).notices }, ?_⟩
  unfold compileAttribute
  rw [hsource]
  refine ends_bind.2 ⟨(), _, ends_modify.2 rfl, ?_⟩
  rw [hcompile]
  exact ends_pure.2 ⟨rfl, rfl⟩

theorem QuotedBeside.kept (h : QuotedBeside settings as compiled quote t) :
    keptBy settings id as = (as.eraseP (isChain settings)).eraseP (isNamed className) := by
  obtain ⟨a, _, hone, _⟩ := h.chain
  have ha : a ∈ as.filter (isChain settings) := by simp [hone]
  rw [List.mem_filter] at ha
  exact if_pos (List.any_eq_true.2 ⟨a, ha⟩)

/-- the class is not the attribute that holds the chain -/
theorem QuotedBeside.written (h : QuotedBeside settings as compiled quote t) :
    ((as.eraseP (isChain settings)).find? (isNamed className)).bind (fun a => writtenSource? a.value) =
      some (quote :: (t ++ [quote])) := by
  obtain ⟨a, source, hone, hsource, _⟩ := h.chain
  have happart : ∀ b ∈ as, isChain settings b = true → isNamed className b = false := by
    intro b _ hb
    by_contra hnamed
    rw [Bool.not_eq_false, isNamed_iff] at hnamed
    have hclass : isChain settings (.named className (.quoted (quote :: (t ++ [quote])))) = true := by
      rwa [isChain, hnamed] at hb
    have hmem := List.mem_filter.2 ⟨List.mem_of_find?_eq_some h.quoted, hclass⟩
    rw [hone, List.mem_singleton] at hmem
    rw [← hmem] at hsource
    cases hsource
  rw [find?_eraseP_of_disjoint happart, h.quoted]
  rfl

theorem QuotedBeside.ends_iff (h : QuotedBeside settings as compiled quote t) {result : List Attribute} :
    (∃ after, Ends (rewriteChain settings language element as) before (some result) after) ↔
      mergeCompiled settings language compiled (as.eraseP (isChain settings)) = .ok result := by
  obtain ⟨a, source, hone, hsource, hcompile⟩ := h.chain
  constructor
  · rintro ⟨after, hends⟩
    obtain ⟨hnone, _⟩ | ⟨a', source', compiled', merged, hmerged, hone', _, hsource', hcompile', hmerge, _⟩ :=
      rewriteChain_ends hends
    · cases hnone
    · obtain rfl := Option.some.inj hmerged
      obtain rfl := List.singleton_inj.1 (hone.symm.trans hone')
      obtain rfl := Option.some.inj (hsource.symm.trans hsource')
      obtain rfl := Except.ok.inj (hcompile.symm.trans hcompile')
      exact hmerge
  · intro hmerge
    obtain ⟨after, hends⟩ := compileAttribute_of_ok hsource hcompile before
    refine ⟨after, ?_⟩
    unfold rewriteChain
    rw [hone]
    simp only
    rw [h.noStyle, if_neg Bool.false_ne_true]
    refine ends_bind.2 ⟨_, _, hends, ends_bind_pure.2 ⟨_, ends_lift.2 ⟨?_, rfl⟩, rfl⟩⟩
    rw [takeChain_eq, hmerge]

theorem QuotedBeside.merges_iff (h : QuotedBeside settings as compiled quote t)
    (hcalls : ReadsCalls language settings.mergeFunction callee) :
    MergesQuoted settings language callee element as before t e styles ↔
      IsPlain t ∧ readGenerated language
        (classCode settings.mergeFunction (some emptyString) compiled.classTemplate) =
          .ok (stringCall callee emptyString e) ∧ ReadsStyles language compiled styles := by
  have hcode : classCode settings.mergeFunction (((as.eraseP (isChain settings)).find? (isNamed className)).bind
      fun a => writtenSource? a.value) compiled.classTemplate =
        classCode settings.mergeFunction (some (quote :: (t ++ [quote]))) compiled.classTemplate := by
    rw [h.written]
  constructor
  · rintro ⟨w, after, hvalue, hends⟩
    obtain ⟨classes, styles', heq, hclasses, hstyles⟩ := mergeCompiled_ok (h.ends_iff.1 ⟨after, hends⟩)
    rw [h.kept] at heq
    obtain ⟨hclass, rfl⟩ := List.cons.inj (List.append_cancel_left heq)
    obtain rfl : stringCall callee w e = classes := by
      injection hclass with _ hvalue
      injection hvalue
    rw [hcode] at hclasses
    obtain ⟨_, hplain, hread⟩ := (readGenerated_call_iff hcalls h.isQuote h.inside).1 ⟨hvalue, hclasses⟩
    exact ⟨hplain, hread, hstyles⟩
  · rintro ⟨hplain, hread, hstyles⟩
    obtain ⟨hvalue, hclasses⟩ := (readGenerated_call_iff hcalls h.isQuote h.inside).2 ⟨rfl, hplain, hread⟩
    rw [← hcode] at hclasses
    obtain ⟨after, hends⟩ := h.ends_iff.2 (mergeCompiled_of_reads hclasses hstyles)
    rw [← h.kept] at hends
    exact ⟨_, after, hvalue, hends⟩

/-- **A quoted class beside a chain.** It becomes a call of the merging function with a string that gives its text and one
more expression if and only if it has neither backslashes nor line ends, the template of the chain is read as that
expression behind the empty string, and the styles of the chain are read. Where the template has no expressions and there
are no styles, the text alone decides. -/
theorem rewriteChain_merges_iff (h : QuotedBeside settings as compiled quote t)
    (hcalls : ReadsCalls language settings.mergeFunction callee) (element : Text) (before : Trace) :
    (∀ e styles, MergesQuoted settings language callee element as before t e styles ↔
      IsPlain t ∧ readGenerated language
        (classCode settings.mergeFunction (some emptyString) compiled.classTemplate) =
          .ok (stringCall callee emptyString e) ∧ ReadsStyles language compiled styles) ∧
    ∀ s, compiled.classTemplate = '\x60' :: (escapeTemplate s ++ ['\x60']) → compiled.styleObject = none →
      (MergesQuoted settings language callee element as before t (.plain (.template [escapeTemplate s]) []) [] ↔
        IsPlain t) := by
  refine ⟨fun e styles => h.merges_iff hcalls, fun s htemplate hstyles => ?_⟩
  have hread : readGenerated language (classCode settings.mergeFunction (some emptyString) compiled.classTemplate) =
      .ok (stringCall callee emptyString (.plain (.template [escapeTemplate s]) [])) := by
    rw [htemplate]
    exact readGenerated_ok_iff.2 ⟨[], hcalls.template s, rfl⟩
  rw [h.merges_iff hcalls]
  exact and_iff_left ⟨hread, Or.inl ⟨hstyles, rfl⟩⟩

/-- what stands behind the string in a call with a template: the template, and the text behind the call -/
def templateBehind? (t : Text) : Option (Node × Text) := do
  let t ← ", \x60".toList.isPrefixOf? t
  match templatePiece [] t with
  | .ok ⟨written, length, .closed⟩ =>
    let rest ← [')'].isPrefixOf? (t.drop length)
    return (.plain (.template [written]) [], rest)
  | _ => none

/-- a call of a function with a string and a template -/
def callOf? (function t : Text) : Option (Node × Text) := do
  let t ← (function ++ ['(']).isPrefixOf? t
  match Token.read t with
  | .string w =>
    let (e, rest) ← templateBehind? (t.drop w.length)
    return (stringCall (.plain (.word function) []) w e, rest)
  | _ => none

/-- a language of calls of a function with a string and a template -/
def callLanguage (function : Text) : Language where
  script := fun _ => .error 0
  expression := fun t => (callOf? function t).elim (.error 0) .ok
  print := fun _ => []

theorem callOf?_eq_some_iff {w rest : Text} :
    callOf? function (function ++ '(' :: t) = some (stringCall (.plain (.word function) []) w e, rest) ↔
      Token.read t = .string w ∧ templateBehind? (t.drop w.length) = some (e, rest) := by
  have hstart : (function ++ ['(']).isPrefixOf? (function ++ '(' :: t) = some t := by simp
  unfold callOf?
  rw [hstart]
  simp only [Option.bind_eq_bind, Option.bind_some]
  split
  · rename_i v htoken
    rw [htoken, Option.bind_eq_some_iff]
    constructor
    · rintro ⟨⟨e', rest'⟩, hbehind, heq⟩
      cases heq
      exact ⟨rfl, hbehind⟩
    · rintro ⟨⟨⟩, hbehind⟩
      exact ⟨_, hbehind, rfl⟩
  · rename_i hother
    exact ⟨nofun, fun h => absurd h.1 (hother w)⟩

theorem templateBehind?_template (s : Text) :
    templateBehind? (", ".toList ++ '\x60' :: (escapeTemplate s ++ ['\x60']) ++ [')']) =
      some (.plain (.template [escapeTemplate s]) [], []) := by
  have hstart : ", \x60".toList.isPrefixOf? (", ".toList ++ '\x60' :: (escapeTemplate s ++ ['\x60']) ++ [')']) =
      some (escapeTemplate s ++ '\x60' :: [')']) := by
    simp
  have hdrop : (escapeTemplate s ++ '\x60' :: [')']).drop ((escapeTemplate s).length + 1) = [')'] :=
    List.drop_length_add_append 1
  unfold templateBehind?
  rw [hstart]
  simp only [Option.bind_eq_bind, Option.bind_some, templatePiece_escapeTemplate, List.length_nil, Nat.zero_add,
    List.reverse_nil, List.nil_append, hdrop]
  rfl

theorem readsCalls_callLanguage (function : Text) :
    ReadsCalls (callLanguage function) function (.plain (.word function) []) := by
  have hread {t rest : Text} {e : Node} :
      (callLanguage function).expression t = .ok (e, rest) ↔ callOf? function t = some (e, rest) := by
    unfold callLanguage
    simp only
    cases callOf? function t <;> simp
  constructor
  · intro quote t w rest e hquote h
    rw [hread, callOf?_eq_some_iff] at h
    exact prefix_of_token_string hquote h.1
  · intro w v t rest e hw hv h
    rw [hread, callOf?_eq_some_iff, List.drop_left] at h
    rw [hread, callOf?_eq_some_iff, List.drop_left]
    exact ⟨token_plainString hv t, h.2⟩
  · intro s
    rw [hread, classCode_some, callOf?_eq_some_iff, List.drop_left]
    exact ⟨token_plainString isPlainString_emptyString _, templateBehind?_template s⟩

/-- a class in double quotes and a chain -/
def boldBeside (t : Text) : List Attribute :=
  [.named className (.quoted ('"' :: (t ++ ['"']))),
    .named "ss".toList (.braced (.plain (.word "SS".toList) []) "SS.bold".toList)]

theorem quotedBeside_bold {t : Text} (ht : '"' ∉ t) :
    QuotedBeside smallSettings (boldBeside t) ⟨"\x60flex bold\x60".toList, none, []⟩ '"' t where
  chain := ⟨_, _, rfl, rfl, by decide +kernel⟩
  noStyle := rfl
  quoted := rfl
  isQuote := Or.inr rfl
  inside := ht

/-- a class of one line is merged, one of two lines is not -/
theorem rewriteChain_merges_bold :
    MergesQuoted smallSettings (callLanguage "clsx".toList) (.plain (.word "clsx".toList) []) "div".toList
        (boldBeside "a b".toList) {} "a b".toList (.plain (.template ["flex bold".toList]) []) [] ∧
      ¬ MergesQuoted smallSettings (callLanguage "clsx".toList) (.plain (.word "clsx".toList) []) "div".toList
        (boldBeside "a\nb".toList) {} "a\nb".toList (.plain (.template ["flex bold".toList]) []) [] := by
  have hiff (t : Text) (ht : '"' ∉ t) :
      MergesQuoted smallSettings (callLanguage "clsx".toList) (.plain (.word "clsx".toList) []) "div".toList
        (boldBeside t) {} t (.plain (.template ["flex bold".toList]) []) [] ↔ IsPlain t :=
    (rewriteChain_merges_iff (quotedBeside_bold ht) (readsCalls_callLanguage _) "div".toList {}).2
      "flex bold".toList rfl rfl
  exact ⟨(hiff _ (by decide)).2 (by decide), fun h => absurd ((hiff _ (by decide)).1 h) (by decide)⟩

end TerseStyle.Rewrite

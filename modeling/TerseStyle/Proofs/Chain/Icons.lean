/-
Icon markers in a chain. A marker stands in brackets and has none inside, so where one marker occurs, another one
neither starts nor ends in the middle of it. In a text with copies of markers put in anywhere but inside one another,
what occurs is therefore a copy or was there before, and taking one marker out leaves the copies of the others as they
were.

Results:
- `Strewn.infix_iff`: the markers that occur are those put in.
- `Strewn.removeAll`: when a marker is removed, its copies are gone and the text with the other copies is left.
- `compile_strewn`: a chain with markers put in compiles as it does without them, with the icons behind its classes.
-/
import Mathlib.Data.List.Basic
import TerseStyle.Chain.Compile

namespace TerseStyle.Chain

open Text (occursIn removeAll removeFrom)

/-! ## Texts with pieces put in -/

/-- a text in brackets, without brackets inside -/
inductive Bracketed : Text → Prop
  | of {inner : Text} : (∀ c ∈ inner, c ≠ '[' ∧ c ≠ ']') → Bracketed ('[' :: (inner ++ [']']))

/-- `Strewn used s t`: `t` is `s` with the pieces `used`, in this order, put in anywhere but inside one another -/
inductive Strewn : List Text → Text → Text → Prop
  | nil : Strewn [] [] []
  | char {c : Char} {used : List Text} {s t : Text} : Strewn used s t → Strewn used (c :: s) (c :: t)
  | piece {p : Text} {used : List Text} {s t : Text} : Strewn used s t → Strewn (p :: used) s (p ++ t)

variable {used : List Text} {m p s t : Text}

theorem strewn_nil (s : Text) : Strewn [] s s := by
  induction s with
  | nil => exact .nil
  | cons c s ih => exact .char ih

theorem Strewn.eq_of_nil (h : Strewn [] s t) : t = s := by
  generalize hused : ([] : List Text) = used at h
  induction h with
  | nil => rfl
  | char _ ih => rw [ih hused]
  | piece => cases hused

/-! ## Where markers occur -/

theorem occursIn_iff : occursIn p t = true ↔ p <:+: t := by
  induction t with
  | nil => rw [occursIn, List.isEmpty_iff, List.infix_nil]
  | cons c t ih => rw [occursIn, Bool.or_eq_true, List.isPrefixOf_iff_prefix, ih, List.infix_cons_iff]

/-- behind the bracket that opens a marker none opens -/
theorem Bracketed.exists_behind (hm : Bracketed m) : ∃ back, m = '[' :: back ∧ ∀ c ∈ back, c ≠ '[' := by
  cases hm with
  | @of inner hinner =>
    refine ⟨inner ++ [']'], rfl, ?_⟩
    intro c hc
    rcases List.mem_append.1 hc with hc | hc
    · exact (hinner c hc).1
    · rw [List.mem_singleton.1 hc]
      decide

theorem Bracketed.ne_nil (hm : Bracketed m) : m ≠ [] := by
  obtain ⟨back, rfl, _⟩ := hm.exists_behind
  exact List.cons_ne_nil _ _

theorem Bracketed.starts (hm : Bracketed m) {c : Char} (h : m <+: c :: t) : c = '[' := by
  obtain ⟨back, rfl, _⟩ := hm.exists_behind
  exact (List.cons_prefix_cons.1 h).1.symm

/-- of two markers neither is longer than the other where both start -/
theorem Bracketed.unique (hm : Bracketed m) (hp : Bracketed p) (h : m <+: p ++ t) : m = p := by
  have hread {inner : Text} (hinner : ∀ c ∈ inner, c ≠ '[' ∧ c ≠ ']') (rest : Text) :
      (inner ++ ']' :: rest).takeWhile (· != ']') = inner := by
    rw [List.takeWhile_append_of_pos fun c hc => by simpa using (hinner c hc).2]
    simp
  cases hm with
  | @of inner hinner =>
    cases hp with
    | @of other hother =>
      obtain ⟨rest, heq⟩ := h
      have hbehind : inner ++ ']' :: rest = other ++ ']' :: t := by simpa using heq
      have hsame : inner = other :=
        calc inner = (inner ++ ']' :: rest).takeWhile (· != ']') := (hread hinner rest).symm
          _ = (other ++ ']' :: t).takeWhile (· != ']') := by rw [hbehind]
          _ = other := hread hother t
      rw [hsame]

/-- no marker starts in a text without opening brackets -/
theorem Bracketed.infix_behind (hm : Bracketed m) {front : Text} (hfront : ∀ c ∈ front, c ≠ '[')
    (h : m <:+: front ++ t) : m <:+: t := by
  induction front with
  | nil => exact h
  | cons c front ih =>
    rcases List.infix_cons_iff.1 h with hstart | h
    · exact absurd (hm.starts hstart) (hfront c List.mem_cons_self)
    · exact ih (fun d hd => hfront d (List.mem_cons_of_mem c hd)) h

/-- text without opening brackets at the start was there before the pieces -/
theorem Strewn.prefix_before (h : Strewn used s t) (hused : ∀ p ∈ used, Bracketed p) {front : Text}
    (hfront : ∀ c ∈ front, c ≠ '[') (ht : front <+: t) : front <+: s := by
  induction front generalizing s t with
  | nil => exact List.nil_prefix
  | cons d front ih =>
    cases h with
    | nil => cases List.prefix_nil.1 ht
    | char h =>
      obtain ⟨rfl, hrest⟩ := List.cons_prefix_cons.1 ht
      exact List.cons_prefix_cons.2 ⟨rfl, ih h (fun c hc => hfront c (List.mem_cons_of_mem _ hc)) hrest⟩
    | piece =>
      obtain ⟨back, rfl, _⟩ := (hused _ List.mem_cons_self).exists_behind
      exact absurd (List.cons_prefix_cons.1 ht).1 (hfront d List.mem_cons_self)

/-- a marker that starts at a character of the text was there before the pieces -/
theorem Strewn.starts_before (h : Strewn used s t) (hused : ∀ p ∈ used, Bracketed p) (hm : Bracketed m) {c : Char}
    (ht : m <+: c :: t) : m <+: c :: s := by
  obtain ⟨back, rfl, hback⟩ := hm.exists_behind
  obtain ⟨rfl, hrest⟩ := List.cons_prefix_cons.1 ht
  exact List.cons_prefix_cons.2 ⟨rfl, h.prefix_before hused hback hrest⟩

/-- **The markers that occur are those put in**, if none was there before. -/
theorem Strewn.infix_iff (h : Strewn used s t) (hused : ∀ p ∈ used, Bracketed p) (hm : Bracketed m)
    (hs : ¬ m <:+: s) : m <:+: t ↔ m ∈ used := by
  induction h with
  | nil => simpa using hs
  | @char c used s t h ih =>
    rw [List.infix_cons_iff, not_or] at hs
    have hstart : ¬ m <+: c :: t := fun ht => hs.1 (h.starts_before hused hm ht)
    rw [List.infix_cons_iff, or_iff_right hstart]
    exact ih hused hs.2
  | @piece p used s t h ih =>
    have hrest := ih (fun q hq => hused q (List.mem_cons_of_mem p hq)) hs
    have hp := hused p List.mem_cons_self
    constructor
    · intro ht
      by_cases hmp : m = p
      · exact hmp ▸ List.mem_cons_self
      -- the other marker starts neither with this one nor inside it
      · have hstart : ¬ m <+: p ++ t := fun hprefix => hmp (hm.unique hp hprefix)
        obtain ⟨back, rfl, hback⟩ := hp.exists_behind
        exact List.mem_cons_of_mem _ (hrest.1 (hm.infix_behind hback ((List.infix_cons_iff.1 ht).resolve_left hstart)))
    · intro hmem
      rcases List.mem_cons.1 hmem with rfl | hmem
      · exact (List.prefix_append m t).isInfix
      · exact (hrest.2 hmem).trans (List.suffix_append p t).isInfix

/-! ## Taking a marker out -/

/-- behind an occurrence that was just found, removal goes on -/
theorem removeFrom_skipped (front t : Text) : removeFrom m front.length (front ++ t) = removeFrom m 0 t := by
  induction front with
  | nil => rfl
  | cons c front ih => exact ih

theorem removeFrom_found (hm : m ≠ []) (t : Text) : removeFrom m 0 (m ++ t) = removeFrom m 0 t := by
  obtain ⟨c, rest, rfl⟩ := List.exists_cons_of_ne_nil hm
  have hprefix : (c :: rest).isPrefixOf (c :: (rest ++ t)) = true :=
    List.isPrefixOf_iff_prefix.2 (List.prefix_append (c :: rest) t)
  rw [List.cons_append, removeFrom, if_pos hprefix]
  exact removeFrom_skipped rest t

theorem removeFrom_passed {c : Char} (h : ¬ m <+: c :: t) : removeFrom m 0 (c :: t) = c :: removeFrom m 0 t := by
  rw [removeFrom, if_neg (by rwa [List.isPrefixOf_iff_prefix])]

theorem removeFrom_copied (hm : Bracketed m) {front : Text} (h : ∀ c ∈ front, c ≠ '[') (t : Text) :
    removeFrom m 0 (front ++ t) = front ++ removeFrom m 0 t := by
  induction front with
  | nil => rfl
  | cons c front ih =>
    have hstart : ¬ m <+: c :: (front ++ t) := fun hprefix => h c List.mem_cons_self (hm.starts hprefix)
    rw [List.cons_append, removeFrom_passed hstart, ih fun d hd => h d (List.mem_cons_of_mem c hd)]
    rfl

/-- another marker stays as it is -/
theorem removeFrom_other (hm : Bracketed m) (hp : Bracketed p) (hne : m ≠ p) (t : Text) :
    removeFrom m 0 (p ++ t) = p ++ removeFrom m 0 t := by
  have hstart : ¬ m <+: p ++ t := fun hprefix => hne (hm.unique hp hprefix)
  obtain ⟨back, rfl, hback⟩ := hp.exists_behind
  have hpassed : removeFrom m 0 ('[' :: (back ++ t)) = '[' :: removeFrom m 0 (back ++ t) := removeFrom_passed hstart
  exact hpassed.trans (congrArg ('[' :: ·) (removeFrom_copied hm hback t))

/-- **Taking a marker out** takes out its copies, and leaves the text with the copies of the others. -/
theorem Strewn.removeAll (h : Strewn used s t) (hused : ∀ p ∈ used, Bracketed p) (hm : Bracketed m)
    (hs : ¬ m <:+: s) : Strewn (used.filter (· ≠ m)) s (removeAll m t) := by
  have hne : m.isEmpty = false := by simpa using hm.ne_nil
  rw [Text.removeAll, hne, if_neg Bool.false_ne_true]
  induction h with
  | nil => exact .nil
  | char h ih =>
    rw [List.infix_cons_iff, not_or] at hs
    rw [removeFrom_passed fun ht => hs.1 (h.starts_before hused hm ht)]
    exact .char (ih hused hs.2)
  | @piece p used s t h ih =>
    have hrest := ih (fun q hq => hused q (List.mem_cons_of_mem p hq)) hs
    by_cases hmp : m = p
    · subst hmp
      rw [removeFrom_found hm.ne_nil, List.filter_cons_of_neg (by simp)]
      exact hrest
    · rw [removeFrom_other hm (hused p List.mem_cons_self) hmp, List.filter_cons_of_pos (by simpa using Ne.symm hmp)]
      exact .piece hrest

/-- **All markers together.** What is left when the markers are taken out one after the other is the text without
pieces; the icons are those of the markers put in, in the order of the escapes. -/
theorem takeIcons_strewn {escapes : List IconEscape} (hdistinct : (escapes.map (·.marker)).Nodup)
    (hform : ∀ e ∈ escapes, Bracketed e.marker) (hplain : ∀ e ∈ escapes, ¬ e.marker <:+: s) (h : Strewn used s t)
    (hused : ∀ p ∈ used, ∃ e ∈ escapes, e.marker = p) :
    takeIcons escapes t = (s, (escapes.filter fun e => e.marker ∈ used).map (·.expression)) := by
  induction escapes generalizing used t with
  | nil =>
    obtain rfl : used = [] := List.eq_nil_iff_forall_not_mem.2 fun p hp => by simpa using hused p hp
    rw [h.eq_of_nil]
    rfl
  | cons e rest ih =>
    rw [List.map_cons, List.nodup_cons] at hdistinct
    have hbracketed : ∀ p ∈ used, Bracketed p := by
      intro p hp
      obtain ⟨e', he', rfl⟩ := hused p hp
      exact hform e' he'
    have hmarker := hform e List.mem_cons_self
    have hbefore := hplain e List.mem_cons_self
    have hother : ∀ e' ∈ rest, e'.marker ≠ e.marker := fun e' he' heq =>
      hdistinct.1 (List.mem_map.2 ⟨e', he', heq⟩)
    have hoccurs := h.infix_iff hbracketed hmarker hbefore
    by_cases hmem : e.marker ∈ used
    · have hleft : ∀ p ∈ used.filter (· ≠ e.marker), ∃ e' ∈ rest, e'.marker = p := by
        intro p hp
        rw [List.mem_filter, decide_eq_true_iff] at hp
        obtain ⟨e', he', rfl⟩ := hused p hp.1
        rcases List.mem_cons.1 he' with rfl | he'
        · exact absurd rfl hp.2
        · exact ⟨e', he', rfl⟩
      have hrest := ih hdistinct.2 (fun e' he' => hform e' (List.mem_cons_of_mem e he'))
        (fun e' he' => hplain e' (List.mem_cons_of_mem e he')) (h.removeAll hbracketed hmarker hbefore) hleft
      have hkept : (rest.filter fun e' => e'.marker ∈ used.filter (· ≠ e.marker)) =
          rest.filter fun e' => e'.marker ∈ used :=
        List.filter_congr fun e' he' => by simp [hother e' he']
      rw [takeIcons, if_pos (occursIn_iff.2 (hoccurs.2 hmem)), hrest, hkept,
        List.filter_cons_of_pos (by simpa using hmem), List.map_cons]
    · have hleft : ∀ p ∈ used, ∃ e' ∈ rest, e'.marker = p := by
        intro p hp
        obtain ⟨e', he', rfl⟩ := hused p hp
        rcases List.mem_cons.1 he' with rfl | he'
        · exact absurd hp hmem
        · exact ⟨e', he', rfl⟩
      rw [takeIcons, if_neg fun ht => hmem (hoccurs.1 (occursIn_iff.1 ht)),
        List.filter_cons_of_neg (by simpa using hmem)]
      exact ih hdistinct.2 (fun e' he' => hform e' (List.mem_cons_of_mem e he'))
        (fun e' he' => hplain e' (List.mem_cons_of_mem e he')) h hleft

/-! ## Compilations -/

/-- the icons whose markers occur in a text, in the order of the escapes -/
def iconsIn (escapes : List IconEscape) (t : Text) : List Text :=
  (escapes.filter fun e => occursIn e.marker t).map (·.expression)

/-- `WithIcons icons r r'`: both are the same error, or `r'` is `r` with the icons interpolated behind its classes -/
inductive WithIcons (icons : List Text) : Except CompileError Compiled → Except CompileError Compiled → Prop
  | error {e : CompileError} : WithIcons icons (.error e) (.error e)
  | ok {body : Text} {styleObject : Option Text} {notices : List Notice} :
      WithIcons icons (.ok ⟨'\x60' :: body ++ ['\x60'], styleObject, notices⟩)
        (.ok ⟨'\x60' :: body ++ icons.flatMap iconSuffix ++ ['\x60'], styleObject, notices⟩)

/-- what a result becomes is determined by it -/
theorem WithIcons.eq_ok {icons : List Text} {body : Text} {styleObject : Option Text} {notices : List Notice}
    {r : Except CompileError Compiled}
    (h : WithIcons icons (.ok ⟨'\x60' :: body ++ ['\x60'], styleObject, notices⟩) r) :
    r = .ok ⟨'\x60' :: body ++ icons.flatMap iconSuffix ++ ['\x60'], styleObject, notices⟩ := by
  generalize hplain : '\x60' :: body ++ ['\x60'] = template at h
  cases h with
  | ok =>
    obtain ⟨hbody, _⟩ := List.append_inj' hplain rfl
    rw [hbody]

/-- icons change nothing but the end of the template -/
theorem resolve_withIcons (v : Vocabulary) (arguments : List Argument) (o : Outcome) (icons : List Text) :
    (resolve v arguments o icons).notices = (resolve v arguments o []).notices ∧
      WithIcons icons (resolve v arguments o []).result (resolve v arguments o icons).result := by
  unfold resolve
  rcases resolveAll v arguments o.candidates with ⟨pieces, error⟩
  refine ⟨rfl, ?_⟩
  cases error with
  | some e => exact .error
  | none =>
    have hplain (fragments : List Text) :
        classTemplate fragments [] = '\x60' :: [' '].intercalate fragments ++ ['\x60'] := by
      simp [classTemplate]
    simp only [hplain]
    exact .ok

/-- **Icon markers are invisible to the chain.** Let the markers be different texts in brackets, with none inside, and
let none of them occur in a chain. With copies of them put in anywhere but inside one another, the chain compiles to the
same result, an error or the same styles, notices and classes, and behind the classes come the icons of the markers that
occur; those are the markers put in. -/
theorem compile_strewn {settings : Settings} (hdistinct : (settings.iconEscapes.map (·.marker)).Nodup)
    (hform : ∀ e ∈ settings.iconEscapes, Bracketed e.marker)
    (hplain : ∀ e ∈ settings.iconEscapes, occursIn e.marker s = false)
    (hused : ∀ p ∈ used, ∃ e ∈ settings.iconEscapes, e.marker = p) (h : Strewn used s t) :
    (compile settings t).notices = (compile settings s).notices ∧
      WithIcons (iconsIn settings.iconEscapes t) (compile settings s).result (compile settings t).result ∧
      ∀ e ∈ settings.iconEscapes, occursIn e.marker t = true ↔ e.marker ∈ used := by
  have hbefore : ∀ e ∈ settings.iconEscapes, ¬ e.marker <:+: s := fun e he hinfix => by
    rw [← occursIn_iff, hplain e he] at hinfix
    cases hinfix
  have hbracketed : ∀ p ∈ used, Bracketed p := by
    intro p hp
    obtain ⟨e, he, rfl⟩ := hused p hp
    exact hform e he
  have hoccurs : ∀ e ∈ settings.iconEscapes, occursIn e.marker t = true ↔ e.marker ∈ used := fun e he =>
    occursIn_iff.trans (h.infix_iff hbracketed (hform e he) (hbefore e he))
  have hicons : takeIcons settings.iconEscapes t = (s, iconsIn settings.iconEscapes t) := by
    have hfound : (settings.iconEscapes.filter fun e => occursIn e.marker t) =
        settings.iconEscapes.filter fun e => e.marker ∈ used :=
      List.filter_congr fun e he => by rw [Bool.eq_iff_iff, decide_eq_true_iff, hoccurs e he]
    rw [iconsIn, hfound]
    exact takeIcons_strewn hdistinct hform hbefore h hused
  have hnone : takeIcons settings.iconEscapes s = (s, []) := by
    have hnothing := takeIcons_strewn hdistinct hform hbefore (strewn_nil s) fun p hp => nomatch hp
    simpa using hnothing
  rw [← and_assoc]
  refine ⟨?_, hoccurs⟩
  unfold compile
  simp only [hicons, hnone]
  rcases Interpreter.preload settings.root s [] with ⟨arguments, fault | o⟩
  · exact ⟨rfl, .error⟩
  · exact resolve_withIcons settings.vocabulary arguments o.finish _

/-- the standard icons beside a vocabulary of two entries -/
def iconSettings : Settings :=
  { Settings.standard with vocabulary := ⟨.ofList [("icon".toList, []), ("f1".toList, "flex-1".toList)], .empty⟩ }

/-- a chain with markers in a name, in an argument and behind it, one of them twice, and not in the order of the
escapes -/
def iconChain : Text := "SS.ic[p.image as 'icon']on.f1(x[icon as 'icon']y)[icon as 'icon']".toList

/-- the icons of the markers come behind the classes of the chain without them -/
theorem compile_strewn_standard :
    ∃ compiled, (compile iconSettings iconChain).result = .ok compiled ∧ compiled.classTemplate =
      "\x60flex icon $\x7b(xy)?('flex-1'):''\x7d $\x7bicon\x7d $\x7bp.image\x7d\x60".toList := by
  have hstrewn : Strewn ["[p.image as 'icon']".toList, "[icon as 'icon']".toList, "[icon as 'icon']".toList]
      "SS.icon.f1(xy)".toList iconChain :=
    .char <| .char <| .char <| .char <| .char <| .piece <| .char <| .char <| .char <| .char <| .char <| .char <|
      .char <| .piece <| .char <| .char <| .piece .nil
  have hform : ∀ e ∈ iconSettings.iconEscapes, Bracketed e.marker := by
    have hicon : Bracketed ('[' :: ("icon as 'icon'".toList ++ [']'])) := .of (by simp)
    have himage : Bracketed ('[' :: ("p.image as 'icon'".toList ++ [']'])) := .of (by simp)
    simp only [iconSettings, Settings.standard, List.mem_cons, List.not_mem_nil, or_false, forall_eq_or_imp, forall_eq]
    exact ⟨hicon, himage⟩
  have hcompile : (compile iconSettings "SS.icon.f1(xy)".toList).result =
      .ok ⟨'\x60' :: "flex icon $\x7b(xy)?('flex-1'):''\x7d".toList ++ ['\x60'], none, []⟩ := by decide +kernel
  have hdistinct : (iconSettings.iconEscapes.map (·.marker)).Nodup := by decide
  obtain ⟨-, hresult, -⟩ := compile_strewn hdistinct hform (by decide) (by decide) hstrewn
  rw [hcompile] at hresult
  exact ⟨_, hresult.eq_ok, by decide +kernel⟩

end TerseStyle.Chain

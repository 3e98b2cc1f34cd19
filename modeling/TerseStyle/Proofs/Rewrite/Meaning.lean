/-
What markers mean. The class that markers become is evaluated in any world, and its text taken apart at blanks: there are
the classes that were there before, and then the names of the markers that are present. The style gives the properties
that were there before, and those of the markers over them.

Results:
- `mergedTemplate_names`: the class names of an old class and class markers.
- `styleObject_gives`: the properties that an object of entries gives are those taken over and the entries over them.
- `rewriteMarkers_meaning`: both for the attributes of an element with markers.
-/
import TerseStyle.Proofs.Rewrite.Conservation
import TerseStyle.Proofs.Rewrite.Template

namespace TerseStyle.Rewrite

open Script
open Text (words)

variable {W : World}

/-! ## Classes and class markers -/

/-- the last attribute of a name -/
def lastNamed (name : Text) (as : List Attribute) : Option Attribute := (as.filter (isNamed name)).getLast?

/-- the class names that a class attribute may give: those of its text or of what its expression gives -/
def OldClasses (W : World) (a : Option Attribute) (names : List Text) : Prop :=
  match a.map fun a => given a.value with
  | some (.text t) => names = words t
  | some (.expression e) => ∃ t, Evaluates W e t ∧ names = words t
  | _ => names = []

/-- the class that a marker adds: its name if it has no value or if its value holds as a test, else none -/
inductive Marks (W : World) (a : Attribute) : List Text → Prop
  | always {name : Text} : attributeClass? a = some name → markerExpression? a.value = none → Marks W a [name]
  | holds {name : Text} {test : Node} : attributeClass? a = some name → markerExpression? a.value = some test →
      W.truth test true → Marks W a [name]
  | fails {name : Text} {test : Node} : attributeClass? a = some name → markerExpression? a.value = some test →
      W.truth test false → Marks W a []

theorem existingSegments_names {a : Option Attribute} {names : List Text} :
    (∃ values, List.Forall₂ (Segment.Gives W) (existingSegments a) values ∧ names = values.flatMap words) ↔
      OldClasses W a names := by
  have hnil : (∃ values, List.Forall₂ (Segment.Gives W) [] values ∧ names = values.flatMap words) ↔ names = [] := by
    simp
  have hone (segment : Segment) :
      (∃ values, List.Forall₂ (Segment.Gives W) [segment] values ∧ names = values.flatMap words) ↔
        ∃ t, segment.Gives W t ∧ names = words t := by
    simp [List.forall₂_cons_left_iff]
  unfold existingSegments OldClasses
  cases a.map fun a => given a.value with
  | none => exact hnil
  | some g =>
    cases g with
    | nothing => exact hnil
    | expression e => exact hone (.expression e)
    | text t =>
      simp only
      split
      · rename_i hblank
        rw [Text.words_of_blanks hblank]
        exact hnil
      · rw [hone, ← Text.words_trim t]
        simp [Segment.Gives]

/-- the segment of a marker gives the class that it adds -/
theorem classSegment_gives {a : Attribute} {name : Text} (hname : attributeClass? a = some name) {names : List Text} :
    (∃ v, (match markerExpression? a.value with
        | none => Segment.text name
        | some test => .expression (conditionalClass test name)).Gives W v ∧ names = words v) ↔
      ∃ shown, Marks W a shown ∧ names = shown.flatMap words := by
  constructor
  · rintro ⟨v, hv, rfl⟩
    cases hvalue : markerExpression? a.value with
    | none =>
      rw [hvalue] at hv
      exact ⟨[name], .always hname hvalue, by rw [show v = name from hv]; simp⟩
    | some test =>
      rw [hvalue] at hv
      obtain ⟨holds, htruth, rfl⟩ := evaluates_conditionalClass.1 hv
      cases holds with
      | true => exact ⟨[name], .holds hname hvalue htruth, by simp⟩
      | false => exact ⟨[], .fails hname hvalue htruth, rfl⟩
  · rintro ⟨shown, hmarks, rfl⟩
    cases hmarks with
    | always hname' hvalue =>
      obtain rfl := Option.some.inj (hname.symm.trans hname')
      exact ⟨name, by rw [hvalue]; rfl, by simp⟩
    | holds hname' hvalue htruth =>
      obtain rfl := Option.some.inj (hname.symm.trans hname')
      exact ⟨name, by rw [hvalue]; exact evaluates_conditionalClass.2 ⟨true, htruth, rfl⟩, by simp⟩
    | fails hname' hvalue htruth =>
      exact ⟨[], by rw [hvalue]; exact evaluates_conditionalClass.2 ⟨false, htruth, rfl⟩, rfl⟩

theorem classSegments_names {as : List Attribute} {names : List Text} :
    (∃ values, List.Forall₂ (Segment.Gives W) (classSegments as) values ∧ names = values.flatMap words) ↔
      ∃ shown, List.Forall₂ (Marks W) (as.filter marksClass) shown ∧ names = shown.flatten.flatMap words := by
  induction as generalizing names with
  | nil => simp [classSegments]
  | cons a rest ih =>
    unfold classSegments at ih ⊢
    rw [List.filterMap_cons]
    cases hclass : attributeClass? a with
    | none =>
      have hbind : a.name?.bind markedClass? = none := hclass
      rw [List.filter_cons_of_neg (by simp [marksClass, hclass])]
      simpa only [hbind, Option.map_none] using ih
    | some name =>
      have hbind : a.name?.bind markedClass? = some name := hclass
      rw [List.filter_cons_of_pos (by simp [marksClass, hclass])]
      simp only [hbind, Option.map_some]
      constructor
      · rintro ⟨values, hvalues, rfl⟩
        obtain ⟨v, others, hv, hothers, rfl⟩ := List.forall₂_cons_left_iff.1 hvalues
        obtain ⟨shown, hshown, hnames⟩ := (classSegment_gives hclass).1 ⟨v, hv, rfl⟩
        obtain ⟨more, hmore, hrest⟩ := ih.1 ⟨others, hothers, rfl⟩
        exact ⟨shown :: more, .cons hshown hmore, by
          rw [List.flatMap_cons, List.flatten_cons, List.flatMap_append, hnames, hrest]⟩
      · rintro ⟨shown, hshown, rfl⟩
        obtain ⟨own, more, hown, hmore, rfl⟩ := List.forall₂_cons_left_iff.1 hshown
        obtain ⟨v, hv, hnames⟩ := (classSegment_gives hclass).2 ⟨own, hown, rfl⟩
        obtain ⟨values, hvalues, hrest⟩ := ih.2 ⟨more, hmore, rfl⟩
        exact ⟨v :: values, .cons hv hvalues, by
          rw [List.flatMap_cons, List.flatten_cons, List.flatMap_append, hnames, hrest]⟩

/-- the class names of a template made of an old class and class markers -/
theorem mergedTemplate_names {old : Option Attribute} {as : List Attribute} {names : List Text} :
    (∃ t, Evaluates W (classTemplate (existingSegments old ++ classSegments as)) t ∧ words t = names) ↔
      ∃ before shown, OldClasses W old before ∧ List.Forall₂ (Marks W) (as.filter marksClass) shown ∧
        names = before ++ shown.flatten.flatMap words := by
  rw [classTemplate_names]
  constructor
  · rintro ⟨values, hvalues, rfl⟩
    have hfront := List.forall₂_take (existingSegments old).length hvalues
    have hback := List.forall₂_drop (existingSegments old).length hvalues
    rw [List.take_left] at hfront
    rw [List.drop_left] at hback
    obtain ⟨shown, hshown, hnames⟩ := classSegments_names.1 ⟨_, hback, rfl⟩
    refine ⟨_, shown, existingSegments_names.1 ⟨_, hfront, rfl⟩, hshown, ?_⟩
    rw [← hnames, ← List.flatMap_append, List.take_append_drop]
  · rintro ⟨before, shown, hold, hshown, rfl⟩
    obtain ⟨front, hfront, rfl⟩ := existingSegments_names.2 hold
    obtain ⟨back, hback, hnames⟩ := classSegments_names.2 ⟨shown, hshown, rfl⟩
    exact ⟨front ++ back, List.rel_append hfront hback, by rw [List.flatMap_append, hnames]⟩

/-! ## Style objects -/

theorem keyName_styleKey (name : Text) : KeyName (styleKey name) name := by
  unfold styleKey
  split
  · exact .word
  · exact .string (stringNode_stringLiteral name)

/-- properties with others over them, of which the later ones count -/
def overridden (p : Properties) (assigned : List (Text × Text)) : Properties := fun name =>
  if name = inheritedName then p name
  else ((assigned.reverse.find? fun a => a.1 = name).map Prod.snd).or (p name)

theorem overridden_nil (p : Properties) : overridden p [] = p := by
  funext name
  simp [overridden]

theorem overridden_cons (p : Properties) (a : Text × Text) (rest : List (Text × Text)) :
    overridden p (a :: rest) = overridden (assign p a.1 a.2) rest := by
  funext name
  unfold overridden assign
  by_cases hinherited : name = inheritedName
  · rw [if_pos hinherited, if_pos hinherited]
    by_cases ha : a.1 = inheritedName
    · rw [if_pos ha]
    · rw [if_neg ha, if_neg (by rw [hinherited]; exact Ne.symm ha)]
  · rw [if_neg hinherited, if_neg hinherited, List.reverse_cons, List.find?_append]
    cases rest.reverse.find? fun a => a.1 = name with
    | some found => rfl
    | none =>
      by_cases ha : a.1 = name
      · rw [if_neg (by rw [ha]; exact hinherited), if_pos ha.symm]
        simp [ha]
      · have hbefore : (if a.1 = inheritedName then p else fun other => if other = a.1 then some a.2 else p other) name =
            p name := by
          split
          · rfl
          · exact if_neg (Ne.symm ha)
        rw [hbefore]
        simp [ha]

/-- the entry of an object for a name and a value -/
def entryNode (entry : Text × Node) : Node := .plain .property [styleKey entry.1, entry.2]

/-- a property that an entry may give -/
def EntryGives (W : World) (entry : Text × Node) (assigned : Text × Text) : Prop :=
  assigned.1 = entry.1 ∧ Evaluates W entry.2 assigned.2

/-- entries give their properties one over the other -/
theorem extendsAll_entries {entries : List (Text × Node)} {p q : Properties} :
    ExtendsAll W p (entries.map entryNode) q ↔
      ∃ assigned, List.Forall₂ (EntryGives W) entries assigned ∧ q = overridden p assigned := by
  induction entries generalizing p q with
  | nil =>
    constructor
    · intro h
      cases h
      exact ⟨[], .nil, (overridden_nil _).symm⟩
    · rintro ⟨assigned, hassigned, rfl⟩
      cases hassigned
      rw [overridden_nil]
      exact .nil
  | cons entry rest ih =>
    constructor
    · intro h
      cases h with
      | cons hpart hrest =>
        cases hpart with
        | @property _ _ name t _ hkey hvalue =>
          obtain ⟨assigned, hassigned, rfl⟩ := ih.1 hrest
          have hname := hkey.unique (keyName_styleKey entry.1)
          exact ⟨(name, t) :: assigned, .cons ⟨hname, hvalue⟩ hassigned, (overridden_cons p (name, t) assigned).symm⟩
    · rintro ⟨assigned, hassigned, rfl⟩
      obtain ⟨own, more, ⟨hname, hvalue⟩, hmore, rfl⟩ := List.forall₂_cons_left_iff.1 hassigned
      have hkey : KeyName (styleKey entry.1) own.1 := hname ▸ keyName_styleKey entry.1
      rw [overridden_cons]
      exact .cons (.property hkey hvalue) (ih.2 ⟨more, hmore, rfl⟩)

/-- the properties that an expression may give, if there is one, else none -/
def BaseGives (W : World) (base : Option Node) (p : Properties) : Prop :=
  match base with
  | some e => W.properties e p
  | none => p = fun _ => none

/-- **The properties of a style object** are those taken over, with those of the entries over them. -/
theorem styleObject_gives {base : Option Node} {entries : List (Text × Node)} {p : Properties} :
    ObjectGives W (styleObject base entries) p ↔
      ∃ q assigned, BaseGives W base q ∧ List.Forall₂ (EntryGives W) entries assigned ∧ p = overridden q assigned := by
  have hobject {parts : List Node} : ObjectGives W (.plain .object parts) p ↔ ExtendsAll W (fun _ => none) parts p := by
    constructor
    · intro h
      cases h with
      | object h => exact h
    · exact .object
  unfold styleObject
  rw [hobject]
  cases base with
  | none =>
    change ExtendsAll W _ (entries.map entryNode) p ↔ _
    rw [extendsAll_entries]
    simp [BaseGives]
  | some e =>
    constructor
    · intro h
      cases h with
      | cons hpart hrest =>
        cases hpart with
        | @spread _ _ q hq =>
          obtain ⟨assigned, hassigned, rfl⟩ := extendsAll_entries.1 hrest
          refine ⟨q, assigned, hq, hassigned, ?_⟩
          simp
    · rintro ⟨q, assigned, hq, hassigned, rfl⟩
      refine .cons (.spread hq) (extendsAll_entries.2 ⟨assigned, hassigned, ?_⟩)
      simp

/-! ## Styles and style markers -/

/-- the expression that an attribute gives, if it gives one -/
def oldExpression? (a : Option Attribute) : Option Node :=
  match a.map fun a => given a.value with
  | some (.expression e) => some e
  | _ => none

/-- an attribute's value as an expression: a string for a text -/
inductive ValueNode (a : Attribute) : Node → Prop
  | expression {e : Node} : given a.value = .expression e → ValueNode a e
  | text {t : Text} {e : Node} : given a.value = .text t → StringNode e t → ValueNode a e

/-- the entry of an object that a style marker asks for: its name with hyphens, and its value -/
inductive EntryOf (a : Attribute) : Node → Prop
  | entry {property : Text} {key value : Node} : attributeProperty? a = some property →
      KeyName key (hyphenate property) → ValueNode a value → EntryOf a (.plain .property [key, value])

/-- the property that a style marker may assign: the text of its value, or what its expression gives -/
inductive Assigns (W : World) (a : Attribute) : Text × Text → Prop
  | text {property t : Text} : attributeProperty? a = some property → given a.value = .text t →
      Assigns W a (hyphenate property, t)
  | expression {property t : Text} {e : Node} : attributeProperty? a = some property →
      given a.value = .expression e → Evaluates W e t → Assigns W a (hyphenate property, t)

/-- an entry is the one of a style marker -/
def HasEntry (a : Attribute) (entry : Text × Node) : Prop :=
  ∃ property, attributeProperty? a = some property ∧ entry.1 = hyphenate property ∧
    markerExpression? a.value = some entry.2

theorem styleEntry?_ok {a : Attribute} {entry : Option (Text × Node)} (h : styleEntry? a = .ok entry) :
    (marksStyle a = false ∧ entry = none) ∨ marksStyle a = true ∧ ∃ p, entry = some p ∧ HasEntry a p := by
  unfold styleEntry? at h
  unfold marksStyle HasEntry attributeProperty?
  cases hname : a.name? with
  | none =>
    simp only [hname] at h
    cases h
    exact Or.inl ⟨rfl, rfl⟩
  | some name =>
    simp only [hname] at h
    rw [Option.bind_some]
    cases hproperty : styleProperty? name with
    | none =>
      simp only [hproperty] at h
      cases h
      exact Or.inl ⟨rfl, rfl⟩
    | some property =>
      simp only [hproperty] at h
      cases hvalue : markerExpression? a.value with
      | none => simp [hvalue] at h
      | some e =>
        simp only [hvalue] at h
        cases h
        exact Or.inr ⟨rfl, _, rfl, property, rfl, rfl, rfl⟩

theorem styleEntries_ok {as : List Attribute} {entries : List (Text × Node)} (h : styleEntries as = .ok entries) :
    List.Forall₂ HasEntry (as.filter marksStyle) entries := by
  induction as generalizing entries with
  | nil =>
    cases h
    exact .nil
  | cons a rest ih =>
    rw [styleEntries] at h
    rcases hentry : styleEntry? a with e | entry
    · rw [hentry] at h
      cases h
    · rcases hrest : styleEntries rest with e | more
      · rw [hentry, hrest] at h
        cases h
      · rw [hentry, hrest] at h
        cases h
        rcases styleEntry?_ok hentry with ⟨hno, rfl⟩ | ⟨hyes, p, rfl, hp⟩
        · rw [List.filter_cons_of_neg (by simp [hno])]
          exact ih hrest
        · rw [List.filter_cons_of_pos hyes]
          exact .cons hp (ih hrest)

theorem valueNode_of_expression {a : Attribute} {e : Node} (h : markerExpression? a.value = some e) :
    ValueNode a e := by
  unfold markerExpression? at h
  cases hgiven : given a.value with
  | nothing => simp [hgiven] at h
  | expression e =>
    simp only [hgiven, Option.some.injEq] at h
    exact h ▸ .expression hgiven
  | text t =>
    simp only [hgiven, Option.some.injEq] at h
    exact h ▸ .text hgiven (stringNode_stringLiteral t)

theorem HasEntry.node {a : Attribute} {entry : Text × Node} (h : HasEntry a entry) : EntryOf a (entryNode entry) := by
  obtain ⟨property, hproperty, hname, hvalue⟩ := h
  exact .entry hproperty (hname ▸ keyName_styleKey entry.1) (valueNode_of_expression hvalue)

/-- an entry gives what its marker assigns -/
theorem HasEntry.gives {a : Attribute} {entry : Text × Node} (h : HasEntry a entry) {assigned : Text × Text} :
    EntryGives W entry assigned ↔ Assigns W a assigned := by
  obtain ⟨property, hproperty, hname, hvalue⟩ := h
  obtain ⟨name, e⟩ := entry
  obtain ⟨name', t⟩ := assigned
  unfold EntryGives
  simp only at hname hvalue ⊢
  subst hname
  unfold markerExpression? at hvalue
  constructor
  · rintro ⟨rfl, ht⟩
    cases hgiven : given a.value with
    | nothing => simp [hgiven] at hvalue
    | expression e' =>
      simp only [hgiven, Option.some.injEq] at hvalue
      exact .expression hproperty hgiven (hvalue ▸ ht)
    | text t' =>
      simp only [hgiven, Option.some.injEq] at hvalue
      rw [← hvalue, evaluates_stringLiteral] at ht
      exact ht ▸ .text hproperty hgiven
  · intro h
    cases h with
    | text hproperty' hgiven =>
      simp only [hgiven, Option.some.injEq] at hvalue
      obtain rfl := Option.some.inj (hproperty.symm.trans hproperty')
      exact ⟨rfl, hvalue ▸ evaluates_stringLiteral.2 rfl⟩
    | expression hproperty' hgiven ht =>
      simp only [hgiven, Option.some.injEq] at hvalue
      obtain rfl := Option.some.inj (hproperty.symm.trans hproperty')
      exact ⟨rfl, hvalue ▸ ht⟩

theorem entries_give {as : List Attribute} {entries : List (Text × Node)} (h : List.Forall₂ HasEntry as entries)
    {assigned : List (Text × Text)} :
    List.Forall₂ (EntryGives W) entries assigned ↔ List.Forall₂ (Assigns W) as assigned := by
  induction h generalizing assigned with
  | nil => simp
  | cons hentry _ ih =>
    rw [List.forall₂_cons_left_iff, List.forall₂_cons_left_iff]
    simp only [hentry.gives, ih]

/-! ## All markers of an element -/

theorem mergeClass_eq {segments : List Segment} (hsome : segments.isEmpty = false) (as : List Attribute) :
    (mergeClass segments as).2 =
      [expressionAttribute className (classTemplate (existingSegments (lastNamed className as) ++ segments))] := by
  unfold mergeClass lastNamed
  rw [hsome, ← takeLast_fst]
  rfl

theorem existingStyle_ok {element : Text} {a : Option Attribute} {base : Option Node}
    (h : existingStyle element a = .ok base) : base = oldExpression? a := by
  unfold existingStyle at h
  unfold oldExpression?
  cases hgiven : a.map fun a => given a.value with
  | none =>
    simp only [hgiven] at h
    exact (Except.ok.inj h).symm
  | some g =>
    cases g with
    | nothing =>
      simp only [hgiven] at h
      exact (Except.ok.inj h).symm
    | expression e =>
      simp only [hgiven] at h
      exact (Except.ok.inj h).symm
    | text t =>
      simp only [hgiven] at h
      cases h

theorem mergeStyle_eq {element : Text} {entries : List (Text × Node)} {as others news : List Attribute}
    (h : mergeStyle element entries as = .ok (others, news)) (hsome : entries.isEmpty = false) :
    news = [expressionAttribute styleName (styleObject (oldExpression? (lastNamed styleName as)) entries)] := by
  unfold mergeStyle at h
  rw [hsome, if_neg (by decide)] at h
  change (existingStyle element (takeLast styleName as).1 >>= fun base =>
    pure ((takeLast styleName as).2, [expressionAttribute styleName (styleObject base entries)])) = _ at h
  rcases hexisting : existingStyle element (takeLast styleName as).1 with e | base
  · rw [hexisting] at h
    cases h
  · rw [hexisting] at h
    cases h
    rw [existingStyle_ok hexisting, takeLast_fst, lastNamed]

/-- names without blanks are one class each -/
theorem words_of_marks {as : List Attribute} {shown : List (List Text)}
    (hnames : ∀ a ∈ as, ∀ name, attributeClass? a = some name → name ≠ [] ∧ ∀ c ∈ name, isBlank c = false)
    (h : List.Forall₂ (Marks W) as shown) : shown.flatten.flatMap words = shown.flatten := by
  induction h with
  | nil => rfl
  | @cons a own as shown hown _ ih =>
    have hone {name : Text} (hname : attributeClass? a = some name) : words name = [name] := by
      obtain ⟨hne, hblank⟩ := hnames a List.mem_cons_self name hname
      have := Text.words_behind hne hblank []
      simpa [words] using this
    have hown' : own.flatMap words = own := by
      cases hown with
      | always hname => simp [hone hname]
      | holds hname => simp [hone hname]
      | fails => rfl
    rw [List.flatten_cons, List.flatMap_append, hown', ih fun b hb => hnames b (List.mem_cons_of_mem a hb)]

/-- **What markers mean.** Let the attributes of an element with markers be rewritten. If there are class markers, the
class that is made may give, in a world, exactly these class names: those of the last class before, and then the names of
the class markers that are present, in order; a name without blanks is one class name. If there are style markers, the
style that is made is an object of the last style before, as a spread, and the entries of the style markers, in order; it
may give exactly the properties of that style with those of the markers over them. -/
theorem rewriteMarkers_meaning {element : Text} {as as' : List Attribute}
    (h : rewriteMarkers element as = .ok (some as')) :
    ∃ others classes styles, as' = others ++ classes ++ styles ∧
      ((∃ a ∈ as, marksClass a = true) →
        ∃ template, classes = [expressionAttribute className template] ∧
          ∀ (W : World) names, (∃ t, Evaluates W template t ∧ words t = names) ↔
            ∃ before shown, OldClasses W (lastNamed className as) before ∧
              List.Forall₂ (Marks W) (as.filter marksClass) shown ∧ names = before ++ shown.flatten.flatMap words) ∧
      ((∀ a ∈ as, ∀ name, attributeClass? a = some name → name ≠ [] ∧ ∀ c ∈ name, isBlank c = false) →
        ∀ (W : World) shown, List.Forall₂ (Marks W) (as.filter marksClass) shown →
          shown.flatten.flatMap words = shown.flatten) ∧
      ((∃ a ∈ as, marksStyle a = true) →
        ∃ entries object, styles = [expressionAttribute styleName object] ∧
          List.Forall₂ EntryOf (as.filter marksStyle) entries ∧
          object = .plain .object
            (((oldExpression? (lastNamed styleName as)).map fun e => .plain .spread [e]).toList ++ entries) ∧
          ∀ (W : World) p, ObjectGives W object p ↔
            ∃ q assigned, BaseGives W (oldExpression? (lastNamed styleName as)) q ∧
              List.Forall₂ (Assigns W) (as.filter marksStyle) assigned ∧ p = overridden q assigned) := by
  rcases rewriteMarkers_ok h with ⟨hnone, _⟩ |
    ⟨_, entries, middle, classes, others, styles, hentries, hclass, hstyle, hresult⟩
  · cases hnone
  have hmiddle : lastNamed styleName middle = lastNamed styleName as := by
    have := filter_mergeClass (classSegments as) (as.filter fun a => !isMarker a)
    rw [hclass, filter_notMarker (Or.inr rfl)] at this
    exact congrArg List.getLast? this
  refine ⟨others, classes, styles, Option.some.inj hresult, ?_, ?_, ?_⟩
  · intro hmarks
    have hsome : (classSegments as).isEmpty = false := by
      rw [isEmpty_classSegments, List.any_eq_true.2 hmarks]
      rfl
    have hclasses := mergeClass_eq hsome (as.filter fun a => !isMarker a)
    rw [hclass] at hclasses
    unfold lastNamed at hclasses ⊢
    rw [filter_notMarker (Or.inl rfl)] at hclasses
    exact ⟨_, hclasses, fun W names => mergedTemplate_names⟩
  · exact fun hnames W shown => words_of_marks fun a ha => hnames a (List.mem_filter.1 ha).1
  · intro hmarks
    have hsome : entries.isEmpty = false := by
      rw [isEmpty_styleEntries hentries, List.any_eq_true.2 hmarks]
      rfl
    have hstyles := mergeStyle_eq hstyle hsome
    rw [hmiddle] at hstyles
    have hall := styleEntries_ok hentries
    refine ⟨entries.map entryNode, _, hstyles, List.forall₂_map_right_iff.2 (hall.imp fun _ _ => HasEntry.node), rfl, ?_⟩
    intro W p
    rw [styleObject_gives]
    simp only [entries_give hall]

/-- a class, a style and markers of both kinds, some with a condition or an expression as the value -/
def styledAttributes : List Attribute :=
  [.named className (.quoted "' a b'".toList), .named "$bold".toList .missing,
    .named "$$color".toList (.quoted "'red'".toList), .named styleName (.braced (.plain (.word "old".toList) []) []),
    .named "$on".toList (.braced (.plain (.word "x".toList) []) []),
    .named "$$fontSize".toList (.braced (.plain (.word "s".toList) []) [])]

/-- a world in which tests may hold or not, an expression gives a size, and another one a colour and a margin -/
def sampleWorld : World where
  text e t := e = .plain (.word "s".toList) [] ∧ t = "2em".toList
  truth _ _ := True
  properties e p := e = .plain (.word "old".toList) [] ∧
    p = overridden (fun _ => none) [("color".toList, "blue".toList), ("margin".toList, "0".toList)]

/-- the class marker with a condition is there or not, behind the others; the colour is the one of the marker -/
theorem rewriteMarkers_meaning_styled :
    ∃ others template object, rewriteMarkers "p".toList styledAttributes =
        .ok (some (others ++ [expressionAttribute className template] ++ [expressionAttribute styleName object])) ∧
      (∃ t, Evaluates sampleWorld template t ∧ words t = ["a".toList, "b".toList, "bold".toList, "on".toList]) ∧
      (∃ t, Evaluates sampleWorld template t ∧ words t = ["a".toList, "b".toList, "bold".toList]) ∧
      ∃ p, ObjectGives sampleWorld object p ∧ p "color".toList = some "red".toList ∧
        p "font-size".toList = some "2em".toList ∧ p "margin".toList = some "0".toList := by
  rcases hrun : rewriteMarkers "p".toList styledAttributes with e | _ | as'
  · cases hrun
  · cases hrun
  obtain ⟨others, classes, styles, rfl, hclass, _, hstyle⟩ := rewriteMarkers_meaning hrun
  obtain ⟨template, rfl, hnames⟩ := hclass ⟨_, List.mem_cons_of_mem _ List.mem_cons_self, rfl⟩
  obtain ⟨_, object, rfl, _, _, hgives⟩ :=
    hstyle ⟨_, List.mem_cons_of_mem _ (List.mem_cons_of_mem _ List.mem_cons_self), rfl⟩
  have hold : OldClasses sampleWorld (lastNamed className styledAttributes) ["a".toList, "b".toList] := by
    change _ = words " a b".toList
    decide
  have hbold : Marks sampleWorld (.named "$bold".toList .missing) ["bold".toList] := .always rfl rfl
  have hname : attributeClass? (.named "$on".toList (.braced (.plain (.word "x".toList) []) [])) = some "on".toList :=
    rfl
  have hon : Marks sampleWorld _ ["on".toList] := .holds hname rfl trivial
  have hoff : Marks sampleWorld _ [] := .fails hname rfl trivial
  have hbase : BaseGives sampleWorld (oldExpression? (lastNamed styleName styledAttributes)) _ := ⟨rfl, rfl⟩
  have hcolor : Assigns sampleWorld (.named "$$color".toList (.quoted "'red'".toList))
      (hyphenate "color".toList, "red".toList) := .text rfl rfl
  have hsize : Assigns sampleWorld (.named "$$fontSize".toList (.braced (.plain (.word "s".toList) []) []))
      (hyphenate "fontSize".toList, "2em".toList) := .expression rfl rfl (.foreign rfl ⟨rfl, rfl⟩)
  have hassigned : List.Forall₂ (Assigns sampleWorld) (styledAttributes.filter marksStyle)
      [("color".toList, "red".toList), ("font-size".toList, "2em".toList)] :=
    .cons hcolor (.cons hsize .nil)
  refine ⟨others, template, object, rfl, (hnames _ _).2 ⟨_, [["bold".toList], ["on".toList]], hold, ?_, by decide⟩,
    (hnames _ _).2 ⟨_, [["bold".toList], []], hold, ?_, by decide⟩, _, (hgives _ _).2 ⟨_, _, hbase, hassigned, rfl⟩, ?_⟩
  · exact .cons hbold (.cons hon .nil)
  · exact .cons hbold (.cons hoff .nil)
  · decide

end TerseStyle.Rewrite

/-
The element that a script is refused for. Elements are visited one after the other: those inside the attributes of an
element come before the element itself, its children behind it. Each is refused for its own attributes as they were
written, so the elements that were rewritten before it play no part, and the first one that is refused decides.

Results:
- `visits_perm_openings`: every element of a tree is visited once.
- `complaints_follows`: rewritten elements inside the attributes change no complaint about them.
- `refusalOf_rewriteNode` and its siblings: a tree is refused for the first of its elements that is.
- `rewriteIn_first_failure`: the same for a script.
-/
import TerseStyle.Proofs.Rewrite.Frame
import TerseStyle.Proofs.Rewrite.Refusals

namespace TerseStyle.Script

/-! ## The order of visits -/

mutual

/-- the elements of a tree in the order of visits: an element comes behind those inside its attributes and before its
children -/
def Node.visits : Node → List Opening
  | .plain _ parts => Node.visitsAll parts
  | .element tag _ attributes _ children =>
    Attribute.visitsAll attributes ++ ⟨tag, attributes⟩ :: Node.visitsAll children

/-- the elements of trees -/
def Node.visitsAll : List Node → List Opening
  | [] => []
  | e :: rest => e.visits ++ Node.visitsAll rest

/-- the elements in an attribute -/
def Attribute.visits : Attribute → List Opening
  | .spread e => e.visits
  | .named _ value => value.visits

/-- the elements in attributes -/
def Attribute.visitsAll : List Attribute → List Opening
  | [] => []
  | a :: rest => a.visits ++ Attribute.visitsAll rest

/-- the elements in a value -/
def Value.visits : Value → List Opening
  | .missing => []
  | .quoted _ => []
  | .braced e _ => e.visits
  | .markup e _ => e.visits

end

mutual

/-- every element of a tree is visited once -/
theorem visits_perm_openings : ∀ e : Node, e.visits.Perm e.openings
  | .plain _ parts => visitsAll_perm_openingsAll parts
  | .element _ _ attributes _ children => by
    rw [Node.visits, Node.openings]
    refine List.perm_middle.trans (.cons _ ?_)
    exact (insideVisits_perm_openings attributes).append (visitsAll_perm_openingsAll children)

theorem visitsAll_perm_openingsAll : ∀ es : List Node, (Node.visitsAll es).Perm (Node.openingsAll es)
  | [] => .refl []
  | e :: rest => by
    rw [Node.visitsAll, Node.openingsAll]
    exact (visits_perm_openings e).append (visitsAll_perm_openingsAll rest)

theorem insideVisits_perm_openings : ∀ as : List Attribute,
    (Attribute.visitsAll as).Perm (Attribute.openingsAll as)
  | [] => .refl []
  | a :: rest => by
    rw [Attribute.visitsAll, Attribute.openingsAll]
    exact (attributeVisits_perm_openings a).append (insideVisits_perm_openings rest)

theorem attributeVisits_perm_openings : ∀ a : Attribute, a.visits.Perm a.openings
  | .spread e => visits_perm_openings e
  | .named _ value => valueVisits_perm_openings value

theorem valueVisits_perm_openings : ∀ v : Value, v.visits.Perm v.openings
  | .missing => .refl []
  | .quoted _ => .refl []
  | .braced e _ => visits_perm_openings e
  | .markup e _ => visits_perm_openings e

end

end TerseStyle.Script

namespace TerseStyle.Rewrite

open Script

variable {settings : Settings} {language : Language} {before : Trace}

/-! ## Complaints after the elements inside were rewritten -/

theorem lacksValue_follows {a b : Attribute} (h : Follows a b) : lacksValue a = lacksValue b := by
  have hmarks : marksStyle a = marksStyle b := by
    rw [marksStyle, marksStyle, attributeProperty?, attributeProperty?, h.name]
  have hwritten (c : Attribute) : (markerExpression? c.value).isNone = (writtenSource? c.value).isNone := by
    cases c.value <;> rfl
  rw [lacksValue, lacksValue, hmarks, hwritten, hwritten, h.written]

theorem holdsText_follows {a b : Attribute} (h : Follows a b) : holdsText a = holdsText b := by
  have hwritten (c : Attribute) :
      holdsText c = ((writtenSource? c.value).isSome && (expressionSource? c.value).isNone) := by
    unfold holdsText
    cases c.value <;> rfl
  rw [hwritten, hwritten, h.written, h.expression]

theorem nameOf_follows {a b : Attribute} (h : Follows a b) : nameOf a = nameOf b := by
  rw [nameOf, nameOf, h.name]

section Complaints

variable {as bs : List Attribute} (h : List.Forall₂ Follows as bs)

include h

theorem chainComplaints_follows (element : Text) :
    chainComplaints settings language element as = chainComplaints settings language element bs := by
  have hchain : ∀ a b, Follows a b → isChain settings a = isChain settings b := fun a b hab => isChain_follows hab.name
  have hstyle : ∀ a b, Follows a b → isNamed styleName a = isNamed styleName b :=
    fun a b hab => isNamed_follows hab.name
  have hrepeated : repeatedChain? settings as = repeatedChain? settings bs := by
    unfold repeatedChain?
    rw [← List.getElem?_map, ← List.getElem?_map, map_together (filter_together h hchain)]
    intro a b hab
    rw [nameOf_follows hab]
  have hvalue : chainWithoutExpression? settings as = chainWithoutExpression? settings bs := by
    unfold chainWithoutExpression?
    rw [Option.map_eq_bind, Option.map_eq_bind, find?_together h]
    · intro a b hab
      rw [hchain a b hab, hab.expression]
    · intro a b hab
      rw [Function.comp_apply, Function.comp_apply, nameOf_follows hab]
  have hfails : failingChain? settings as = failingChain? settings bs := by
    unfold failingChain?
    rw [find?_together h hchain fun a b hab => hab.expression.symm]
  rw [chainComplaints, chainComplaints, hrepeated, chainBesideStyle?, chainBesideStyle?, any_together h hchain,
    any_together h hstyle, hvalue, hfails, brokenCode?, brokenCode?, generatedCode_follows h]

theorem markerComplaints_follows (element : Text) : markerComplaints element as = markerComplaints element bs := by
  have hmarks : ∀ a b, Follows a b → marksStyle a = marksStyle b := by
    intro a b hab
    rw [marksStyle, marksStyle, attributeProperty?, attributeProperty?, hab.name]
  have hvalue : styleWithoutValue? as = styleWithoutValue? bs := by
    unfold styleWithoutValue?
    rw [Option.map_eq_bind, Option.map_eq_bind, find?_together h fun a b hab => lacksValue_follows hab]
    intro a b hab
    rw [Function.comp_apply, Function.comp_apply, nameOf_follows hab]
  have hlast : ((as.filter (isNamed styleName)).getLast?.any holdsText) =
      (bs.filter (isNamed styleName)).getLast?.any holdsText := by
    have hstyle : ∀ a b, Follows a b → isNamed styleName a = isNamed styleName b :=
      fun a b hab => isNamed_follows hab.name
    have hmap := map_together (filter_together h hstyle) fun a b hab => holdsText_follows hab
    have hany (cs : List Attribute) : cs.getLast?.any holdsText = (cs.map holdsText).getLast?.any id := by
      rw [List.getLast?_map]
      cases cs.getLast? <;> rfl
    rw [hany, hany, hmap]
  rw [markerComplaints, markerComplaints, hvalue, markerBesideText?, markerBesideText?, any_together h hmarks, hlast]

/-- what is said about attributes is the same after the elements inside them were rewritten -/
theorem complaints_follows (element : Text) :
    complaints settings language element as = complaints settings language element bs := by
  rw [complaints, complaints, chainComplaints_follows h, markerComplaints_follows h]

end Complaints

/-! ## One element -/

/-- what an element is refused for, judged on its attributes as they were written, before anything is rewritten -/
def refusal? (settings : Settings) (language : Language) (o : Opening) : Option RewriteError :=
  refusalOf (rewriteAttributes settings language o.tag o.attributes) {}

theorem refusalOf_component {tag : TagName} (h : tag.isIntrinsic = false) (as : List Attribute) (before : Trace) :
    refusalOf (rewriteAttributes settings language tag as) before = none := by
  unfold rewriteAttributes
  rw [h]
  rfl

/-- only intrinsic elements are refused -/
theorem isIntrinsic_of_refusal? {o : Opening} (h : (refusal? settings language o).isSome = true) :
    o.tag.isIntrinsic = true := by
  cases hintrinsic : o.tag.isIntrinsic with
  | true => rfl
  | false =>
    rw [refusal?, refusalOf_component hintrinsic] at h
    cases h

/-- neither what was rewritten before nor the rewritten elements inside the attributes count for an element -/
theorem refusalOf_follows (tag : TagName) {as bs : List Attribute} (h : List.Forall₂ Follows as bs) (before : Trace) :
    refusalOf (rewriteAttributes settings language tag bs) before = refusal? settings language ⟨tag, as⟩ := by
  unfold refusal?
  cases hintrinsic : tag.isIntrinsic with
  | false => rw [refusalOf_component hintrinsic, refusalOf_component hintrinsic]
  | true =>
    rw [refusalOf_rewriteAttributes hintrinsic, refusalOf_rewriteAttributes hintrinsic, complaints_follows h]

/-! ## Trees -/

/-- the error of the first of these elements that is refused -/
def firstRefusal? (settings : Settings) (language : Language) (os : List Opening) : Option RewriteError :=
  os.findSome? (refusal? settings language)

theorem firstRefusal?_append (os ps : List Opening) :
    firstRefusal? settings language (os ++ ps) =
      (firstRefusal? settings language os).or (firstRefusal? settings language ps) :=
  List.findSome?_append

theorem firstRefusal?_cons (o : Opening) (os : List Opening) :
    firstRefusal? settings language (o :: os) =
      (refusal? settings language o).or (firstRefusal? settings language os) := by
  rw [firstRefusal?, List.findSome?_cons]
  cases refusal? settings language o <;> rfl

mutual

/-- a tree is refused for the first of its elements that is, whatever was rewritten before -/
theorem refusalOf_rewriteNode : ∀ (e : Node) (before : Trace),
    refusalOf (rewriteNode settings language e) before = firstRefusal? settings language e.visits
  | .plain form parts, before => by
    rw [rewriteNode, refusalOf_bind fun parts' mid _ => refusalOf_pure (Node.plain form parts') mid, Option.or_none]
    exact refusalOf_rewriteNodes parts before
  | .element tag types attributes closed children, before => by
    rw [rewriteNode, Node.visits, firstRefusal?_append, firstRefusal?_cons, ← refusalOf_rewriteInside attributes before]
    refine refusalOf_bind fun inside mid hinside => ?_
    -- the attributes that are judged are rewritten inside, and may be judged as they were
    rw [← refusalOf_follows tag (rewriteInside_follows hinside) mid]
    refine refusalOf_bind fun own mid' _ => ?_
    rw [refusalOf_bind fun children' last _ => refusalOf_pure (Node.element tag types own closed children') last,
      Option.or_none]
    exact refusalOf_rewriteNodes children mid'

theorem refusalOf_rewriteNodes : ∀ (es : List Node) (before : Trace),
    refusalOf (rewriteNodes settings language es) before = firstRefusal? settings language (Node.visitsAll es)
  | [], _ => rfl
  | e :: rest, before => by
    rw [rewriteNodes, Node.visitsAll, firstRefusal?_append, ← refusalOf_rewriteNode e before]
    refine refusalOf_bind fun e' mid _ => ?_
    rw [refusalOf_bind fun rest' last _ => refusalOf_pure (e' :: rest') last, Option.or_none]
    exact refusalOf_rewriteNodes rest mid

theorem refusalOf_rewriteInside : ∀ (as : List Attribute) (before : Trace),
    refusalOf (rewriteInside settings language as) before = firstRefusal? settings language (Attribute.visitsAll as)
  | [], _ => rfl
  | a :: rest, before => by
    rw [rewriteInside, Attribute.visitsAll, firstRefusal?_append, ← refusalOf_rewriteInAttribute a before]
    refine refusalOf_bind fun a' mid _ => ?_
    rw [refusalOf_bind fun rest' last _ => refusalOf_pure (a' :: rest') last, Option.or_none]
    exact refusalOf_rewriteInside rest mid

theorem refusalOf_rewriteInAttribute : ∀ (a : Attribute) (before : Trace),
    refusalOf (rewriteInAttribute settings language a) before = firstRefusal? settings language a.visits
  | .spread e, before => by
    rw [rewriteInAttribute, refusalOf_bind fun e' mid _ => refusalOf_pure (Attribute.spread e') mid, Option.or_none]
    exact refusalOf_rewriteNode e before
  | .named name value, before => by
    rw [rewriteInAttribute, refusalOf_bind fun value' mid _ => refusalOf_pure (Attribute.named name value') mid,
      Option.or_none]
    exact refusalOf_rewriteInValue value before

theorem refusalOf_rewriteInValue : ∀ (v : Value) (before : Trace),
    refusalOf (rewriteInValue settings language v) before = firstRefusal? settings language v.visits
  | .missing, _ => rfl
  | .quoted _, _ => rfl
  | .braced e source, before => by
    rw [rewriteInValue, refusalOf_bind fun e' mid _ => refusalOf_pure (Value.braced e' source) mid, Option.or_none]
    exact refusalOf_rewriteNode e before
  | .markup e source, before => by
    rw [rewriteInValue, refusalOf_bind fun e' mid _ => refusalOf_pure (Value.markup e' source) mid, Option.or_none]
    exact refusalOf_rewriteNode e before

end

/-! ## Scripts -/

/-- the error of a script that was read -/
theorem rewriteIn_error_iff {file source : Text} {tree : Node} (h : language.script source = .ok tree)
    (e : RewriteError) :
    (rewriteIn language settings file source).result = .error e ↔
      firstRefusal? settings language tree.visits = some e := by
  rw [← refusalOf_rewriteNode tree {}]
  change _ ↔ errorOf (rewriteTree settings language tree).1 = some e
  unfold rewriteIn
  rw [h]
  dsimp only
  rcases rewriteTree settings language tree with ⟨e' | t, trace⟩ <;> simp [errorOf]

/-- **The first element that is refused decides.** A script that can be read is refused exactly when one of its
intrinsic elements is, and its error is that of the first such element in the order of visits, in which the elements
inside the attributes of an element come before it and its children behind it; nothing behind that element counts. What
an element is refused for is told by its own attributes as they were written: neither the elements inside them, which are
rewritten by then, nor anything rewritten or noted before makes a difference. -/
theorem rewriteIn_first_failure (language : Language) (settings : Settings) {file source : Text} {tree : Node}
    (h : language.script source = .ok tree) :
    (∀ e, (rewriteIn language settings file source).result = .error e ↔
        ∃ front o back, tree.visits = front ++ o :: back ∧ (∀ p ∈ front, refusal? settings language p = none) ∧
          refusal? settings language o = some e) ∧
      ((∃ e, (rewriteIn language settings file source).result = .error e) ↔
        ∃ o ∈ tree.openings, o.tag.isIntrinsic = true ∧ (refusal? settings language o).isSome = true) ∧
      ∀ o ∈ tree.openings, ∀ start inside mid, Ends (rewriteInside settings language o.attributes) start inside mid →
        ∀ before, refusalOf (rewriteAttributes settings language o.tag inside) before =
          refusal? settings language o := by
  refine ⟨?_, ?_, ?_⟩
  · intro e
    rw [rewriteIn_error_iff h, firstRefusal?, List.findSome?_eq_some_iff]
    constructor
    · rintro ⟨front, o, back, hsplit, ho, hfront⟩
      exact ⟨front, o, back, hsplit, hfront, ho⟩
    · rintro ⟨front, o, back, hsplit, hfront, ho⟩
      exact ⟨front, o, back, hsplit, ho, hfront⟩
  · simp only [rewriteIn_error_iff h, ← Option.isSome_iff_exists, firstRefusal?, List.findSome?_isSome_iff,
      (visits_perm_openings tree).mem_iff]
    constructor
    · rintro ⟨o, ho, hrefused⟩
      exact ⟨o, ho, isIntrinsic_of_refusal? hrefused, hrefused⟩
    · rintro ⟨o, ho, _, hrefused⟩
      exact ⟨o, ho, hrefused⟩
  · intro o _ start inside mid hinside before
    exact refusalOf_follows o.tag (rewriteInside_follows hinside) before

/-- an element with a style marker without a value, with another one inside its attributes and a third one behind it -/
def refusedSource : Text := "<div $$o a=\x7b<p $$i/>\x7d><q $$z/></div>".toList

/-- of three elements that are refused, the one inside the attributes of another decides -/
theorem rewriteIn_first_failure_inside :
    let language := Language.ofFile "a.tsx".toList
    ∃ tree, language.script refusedSource = .ok tree ∧
      tree.openings.map (refusal? .standard language) = [some (.missingStyleValue "$$o".toList),
        some (.missingStyleValue "$$i".toList), some (.missingStyleValue "$$z".toList)] ∧
      (rewriteIn language .standard "a.tsx".toList refusedSource).result =
        .error (.missingStyleValue "$$i".toList) := by
  intro language
  have hread : (language.script refusedSource).toOption.any (fun tree =>
      tree.visits.map (refusal? .standard language) = [some (.missingStyleValue "$$i".toList),
        some (.missingStyleValue "$$o".toList), some (.missingStyleValue "$$z".toList)] ∧
      tree.openings.map (refusal? .standard language) = [some (.missingStyleValue "$$o".toList),
        some (.missingStyleValue "$$i".toList), some (.missingStyleValue "$$z".toList)]) = true := by decide +kernel
  obtain ⟨tree, htree, hrefusals⟩ := exists_script hread
  obtain ⟨hvisits, hopenings⟩ : _ ∧ _ := by simpa only [decide_eq_true_iff] using hrefusals
  refine ⟨tree, htree, hopenings, ((rewriteIn_first_failure language .standard htree).1 _).2 ?_⟩
  obtain ⟨o, back, hsplit, ho, _⟩ := List.map_eq_cons_iff.1 hvisits
  exact ⟨[], o, back, hsplit, by simp, ho⟩

end TerseStyle.Rewrite

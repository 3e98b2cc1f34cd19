/-
What a rewrite leaves. Elements that a rewrite moves are settled before, but the expressions that are read for a chain
are not looked at again. Those of them that stay in the tree are its residue, and all that can be left to do.

Results:
- `rewriteNode_settles_iff`: the elements come out settled exactly when those in the residue are.
-/
import TerseStyle.Proofs.Rewrite.Tree

namespace TerseStyle.Rewrite

open Script

variable {settings : Settings} {language : Language}

/-! ## The residue -/

mutual

/-- the expressions read from generated code that stay in a tree when it is rewritten; those inside a chain attribute,
or inside a class merged with it, go with it -/
def residue (settings : Settings) (language : Language) : Node → List Node
  | .plain _ parts => residueAll settings language parts
  | .element tag _ attributes _ children =>
    let inside := residueInside settings language attributes
    (if tag.isIntrinsic then
      (keptBy settings Prod.fst inside).flatMap Prod.snd ++ generated settings language attributes
    else inside.flatMap Prod.snd) ++ residueAll settings language children

/-- the residue of trees -/
def residueAll (settings : Settings) (language : Language) : List Node → List Node
  | [] => []
  | e :: rest => residue settings language e ++ residueAll settings language rest

/-- attributes, each with the residue inside it -/
def residueInside (settings : Settings) (language : Language) : List Attribute → List (Attribute × List Node)
  | [] => []
  | a :: rest => (a, residueInAttribute settings language a) :: residueInside settings language rest

/-- the residue inside an attribute -/
def residueInAttribute (settings : Settings) (language : Language) : Attribute → List Node
  | .spread e => residue settings language e
  | .named _ value => residueInValue settings language value

/-- the residue inside a value -/
def residueInValue (settings : Settings) (language : Language) : Value → List Node
  | .missing => []
  | .quoted _ => []
  | .braced e _ => residue settings language e
  | .markup e _ => residue settings language e

end

theorem openingsAll_append (es fs : List Node) :
    Node.openingsAll (es ++ fs) = Node.openingsAll es ++ Node.openingsAll fs := by
  induction es with
  | nil => rfl
  | cons e es ih => simp [Node.openingsAll, ih]

/-! ## Rows that go together -/

section Together

variable {α β γ : Type} {R : α → β → Prop} {p : α → Bool} {q : β → Bool} {l : List α} {m : List β}

theorem any_together (h : List.Forall₂ R l m) (hpq : ∀ a b, R a b → p a = q b) : l.any p = m.any q := by
  induction h with
  | nil => rfl
  | cons hab _ ih => rw [List.any_cons, List.any_cons, hpq _ _ hab, ih]

theorem find?_together {f : α → Option γ} {g : β → Option γ} (h : List.Forall₂ R l m) (hpq : ∀ a b, R a b → p a = q b)
    (hfg : ∀ a b, R a b → f a = g b) : (l.find? p).bind f = (m.find? q).bind g := by
  induction h with
  | nil => rfl
  | @cons a b _ _ hab _ ih =>
    rw [List.find?_cons, List.find?_cons, hpq a b hab]
    cases q b with
    | true => exact hfg a b hab
    | false => exact ih

theorem map_together {f : α → γ} {g : β → γ} (h : List.Forall₂ R l m) (hfg : ∀ a b, R a b → f a = g b) :
    l.map f = m.map g := by
  induction h with
  | nil => rfl
  | cons hab _ ih => rw [List.map_cons, List.map_cons, hfg _ _ hab, ih]

theorem filter_together (h : List.Forall₂ R l m) (hpq : ∀ a b, R a b → p a = q b) :
    List.Forall₂ R (l.filter p) (m.filter q) := by
  refine List.rel_filter (fun a b hab => ?_) h
  change p a = true ↔ q b = true
  rw [hpq a b hab]

theorem eraseP_together (h : List.Forall₂ R l m) (hpq : ∀ a b, R a b → p a = q b) :
    List.Forall₂ R (l.eraseP p) (m.eraseP q) := by
  induction h with
  | nil => exact .nil
  | @cons a b _ _ hab hrest ih =>
    rw [List.eraseP_cons, List.eraseP_cons, hpq a b hab]
    cases q b with
    | true => exact hrest
    | false => exact .cons hab ih

end Together

theorem isChain_follows {a b : Attribute} (h : b.name? = a.name?) : isChain settings a = isChain settings b := by
  rw [isChain, isChain, h]

theorem isNamed_follows {name : Text} {a b : Attribute} (h : b.name? = a.name?) : isNamed name a = isNamed name b := by
  rw [isNamed, isNamed, h]

/-- attributes are kept together with what follows them -/
theorem keptBy_together {α β : Type} {R : α → β → Prop} {source : α → Attribute} {source' : β → Attribute} {l : List α}
    {m : List β} (h : List.Forall₂ R l m) (hname : ∀ a b, R a b → (source' b).name? = (source a).name?) :
    List.Forall₂ R (keptBy settings source l) (keptBy settings source' m) := by
  have hchain : ∀ a b, R a b → isChain settings (source a) = isChain settings (source' b) :=
    fun a b hab => isChain_follows (hname a b hab)
  have hclass : ∀ a b, R a b → isNamed className (source a) = isNamed className (source' b) :=
    fun a b hab => isNamed_follows (hname a b hab)
  unfold keptBy
  rw [any_together h hchain]
  split
  · exact eraseP_together (eraseP_together h hchain) hclass
  · exact h

/-- a chain is replaced by the same code after the elements inside the attributes were rewritten -/
theorem generatedCode_follows {as bs : List Attribute} (h : List.Forall₂ Follows as bs) :
    generatedCode settings as = generatedCode settings bs := by
  have hchain : ∀ a b, Follows a b → isChain settings a = isChain settings b :=
    fun a b hab => isChain_follows hab.name
  have hclass : ∀ a b, Follows a b → isNamed className a = isNamed className b :=
    fun a b hab => isNamed_follows hab.name
  unfold generatedCode
  simp only [find?_together h hchain fun a b hab => hab.expression.symm,
    find?_together (eraseP_together h hchain) hclass fun a b hab => hab.written.symm]

theorem generated_follows {as bs : List Attribute} (h : List.Forall₂ Follows as bs) :
    generated settings language as = generated settings language bs := by
  rw [generated, generated, generatedCode_follows h]

/-! ## Settling -/

/-- the name of a rewritten attribute, and whether the elements inside it are settled, read off the attribute before
with its residue -/
structure SettlesBy (settings : Settings) (p : Attribute × List Node) (b : Attribute) : Prop where
  name : b.name? = p.1.name?
  settled_iff : Settled settings b.openings ↔ Settled settings (Node.openingsAll p.2)

theorem settled_together {ps : List (Attribute × List Node)} {bs : List Attribute}
    (h : List.Forall₂ (SettlesBy settings) ps bs) :
    Settled settings (Attribute.openingsAll bs) ↔ Settled settings (Node.openingsAll (ps.flatMap Prod.snd)) := by
  induction h with
  | nil => rfl
  | cons hab _ ih =>
    rw [Attribute.openingsAll, List.flatMap_cons, openingsAll_append, settled_append, settled_append, hab.settled_iff,
      ih]

/-- an element with what is inside its attributes and behind it -/
theorem settled_element_iff {tag : TagName} {types children children' : List Node} {as inside own : List Attribute}
    {closed : Bool} {mid mid' : Trace} (hapart : ChainsApart settings) (hfollows : List.Forall₂ Follows as inside)
    (hinside : List.Forall₂ (SettlesBy settings) (residueInside settings language as) inside)
    (hown : Ends (rewriteAttributes settings language tag inside) mid own mid')
    (hchildren : Settled settings (Node.openingsAll children') ↔
      Settled settings (Node.openingsAll (residueAll settings language children))) :
    Settled settings (Node.element tag types own closed children').openings ↔
      Settled settings (Node.openingsAll (residue settings language (.element tag types as closed children))) := by
  -- the element itself is settled now, so that what is left is inside its attributes and behind it
  have hsettled : IsSettled settings ⟨tag, own⟩ := by
    rcases rewriteAttributes_cases hapart hown with ⟨hsettled, rfl, _⟩ | ⟨_, hsettled, _⟩ <;> exact hsettled
  rw [Node.openings, settled_cons, settled_append, hchildren, and_iff_right hsettled, residue, openingsAll_append,
    settled_append]
  refine and_congr_left fun _ => ?_
  cases hintrinsic : tag.isIntrinsic with
  | false =>
    rcases rewriteAttributes_ends hown with ⟨_, rfl, _⟩ | ⟨h, _⟩
    · exact settled_together hinside
    · rw [hintrinsic] at h
      cases h
  | true =>
    have hopenings : Settled settings (Attribute.openingsAll own) ↔
        Settled settings (Attribute.openingsAll (keptBy settings id inside)) ∧
          Settled settings (Node.openingsAll (generated settings language inside)) := by
      rw [← settled_append]
      exact forall_congr' fun o => by rw [rewriteAttributes_openings hintrinsic hown, List.mem_append]
    have hkept : List.Forall₂ (SettlesBy settings) (keptBy settings Prod.fst (residueInside settings language as))
        (keptBy settings id inside) := keptBy_together hinside fun _ _ h => h.name
    rw [if_pos rfl, openingsAll_append, settled_append, hopenings, generated_follows hfollows, settled_together hkept]

mutual

/-- the elements of a rewritten tree are settled exactly when those in its residue are -/
theorem rewriteNode_settles_iff (hapart : ChainsApart settings) : ∀ (e : Node) {t : Node} {before after : Trace},
    Ends (rewriteNode settings language e) before t after →
      (Settled settings t.openings ↔ Settled settings (Node.openingsAll (residue settings language e)))
  | .plain _ parts, _, _, _, h => by
    obtain ⟨parts', hparts, rfl⟩ := rewriteNode_plain_ends.1 h
    exact rewriteNodes_settles_iff hapart parts hparts
  | .element _ _ attributes _ children, _, _, _, h => by
    obtain ⟨inside, mid, own, mid', children', hinside, hown, hchildren, rfl⟩ := rewriteNode_element_ends.1 h
    exact settled_element_iff hapart (rewriteInside_follows hinside) (rewriteInside_settles hapart attributes hinside)
      hown (rewriteNodes_settles_iff hapart children hchildren)

theorem rewriteNodes_settles_iff (hapart : ChainsApart settings) :
    ∀ (es : List Node) {ts : List Node} {before after : Trace},
      Ends (rewriteNodes settings language es) before ts after →
        (Settled settings (Node.openingsAll ts) ↔ Settled settings (Node.openingsAll (residueAll settings language es)))
  | [], _, _, _, h => by
    obtain ⟨rfl, _⟩ := rewriteNodes_nil_ends.1 h
    rfl
  | e :: rest, _, _, _, h => by
    obtain ⟨e', mid, rest', he, hrest, rfl⟩ := rewriteNodes_cons_ends.1 h
    rw [Node.openingsAll, residueAll, openingsAll_append, settled_append, settled_append,
      rewriteNode_settles_iff hapart e he, rewriteNodes_settles_iff hapart rest hrest]

theorem rewriteInside_settles (hapart : ChainsApart settings) :
    ∀ (as : List Attribute) {bs : List Attribute} {before after : Trace},
      Ends (rewriteInside settings language as) before bs after →
        List.Forall₂ (SettlesBy settings) (residueInside settings language as) bs
  | [], _, _, _, h => by
    obtain ⟨rfl, _⟩ := rewriteInside_nil_ends.1 h
    exact .nil
  | a :: rest, _, _, _, h => by
    obtain ⟨a', mid, rest', ha, hrest, rfl⟩ := rewriteInside_cons_ends.1 h
    exact .cons ⟨(rewriteInAttribute_follows ha).name, rewriteInAttribute_settles_iff hapart a ha⟩
      (rewriteInside_settles hapart rest hrest)

theorem rewriteInAttribute_settles_iff (hapart : ChainsApart settings) :
    ∀ (a : Attribute) {b : Attribute} {before after : Trace},
      Ends (rewriteInAttribute settings language a) before b after →
        (Settled settings b.openings ↔ Settled settings (Node.openingsAll (residueInAttribute settings language a)))
  | .spread e, _, _, _, h => by
    obtain ⟨e', he, rfl⟩ := rewriteInAttribute_spread_ends.1 h
    exact rewriteNode_settles_iff hapart e he
  | .named _ value, _, _, _, h => by
    obtain ⟨value', hvalue, rfl⟩ := rewriteInAttribute_named_ends.1 h
    exact rewriteInValue_settles_iff hapart value hvalue

theorem rewriteInValue_settles_iff (hapart : ChainsApart settings) :
    ∀ (v : Value) {w : Value} {before after : Trace}, Ends (rewriteInValue settings language v) before w after →
      (Settled settings w.openings ↔ Settled settings (Node.openingsAll (residueInValue settings language v)))
  | .missing, _, _, _, h => by
    obtain ⟨rfl, _⟩ := rewriteInValue_missing_ends.1 h
    rfl
  | .quoted _, _, _, _, h => by
    obtain ⟨rfl, _⟩ := rewriteInValue_quoted_ends.1 h
    rfl
  | .braced e _, _, _, _, h => by
    obtain ⟨e', he, rfl⟩ := rewriteInValue_braced_ends.1 h
    exact rewriteNode_settles_iff hapart e he
  | .markup e _, _, _, _, h => by
    obtain ⟨e', he, rfl⟩ := rewriteInValue_markup_ends.1 h
    exact rewriteNode_settles_iff hapart e he

end

end TerseStyle.Rewrite

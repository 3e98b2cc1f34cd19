/-
Runs of a rewrite. `Ends x before a after` says that a rewrite succeeds with `a` and what is noted on the way; it is
read off each step of the rewrite, so that no later proof opens the monad.

Results:
- `ends_bind`, `ends_lift`: a rewrite of several steps succeeds when each of them does.
- `refusalOf_bind`, `refusalOf_lift`: a rewrite of several steps fails as the first of them that does.
- `rewriteNode_plain_ends` and its siblings: one equivalence for each construct of a tree.
-/
import TerseStyle.Rewrite.Script

namespace TerseStyle.Rewrite

open Script

/-- a rewrite that starts with one trace succeeds with a result and another trace -/
def Ends {α : Type} (x : Rewriting α) (before : Trace) (a : α) (after : Trace) : Prop :=
  x.run.run before = (.ok a, after)

variable {α β : Type} {before after : Trace}

theorem Ends.unique {x : Rewriting α} {a b : α} {after' : Trace} (h : Ends x before a after)
    (h' : Ends x before b after') : a = b ∧ after = after' := by
  have heq := h.symm.trans h'
  rw [Prod.mk.injEq, Except.ok.injEq] at heq
  exact heq

theorem ends_pure {a b : α} : Ends (pure a) before b after ↔ b = a ∧ after = before := by
  unfold Ends
  rw [ExceptT.run_pure, StateT.run_pure]
  constructor
  · intro h
    cases h
    exact ⟨rfl, rfl⟩
  · intro h
    obtain ⟨rfl, rfl⟩ := h
    rfl

theorem ends_bind {x : Rewriting α} {f : α → Rewriting β} {b : β} :
    Ends (x >>= f) before b after ↔ ∃ a mid, Ends x before a mid ∧ Ends (f a) mid b after := by
  unfold Ends
  rw [ExceptT.run_bind, StateT.run_bind]
  rcases hx : x.run.run before with ⟨_ | a, mid⟩
  · constructor
    · intro h
      cases h
    · intro h
      obtain ⟨a, mid', ⟨⟩, _⟩ := h
  · constructor
    · intro h
      exact ⟨a, mid, rfl, h⟩
    · intro h
      obtain ⟨a', mid', ⟨⟩, h⟩ := h
      exact h

theorem ends_bind_pure {x : Rewriting α} {f : α → β} {b : β} :
    Ends (x >>= fun a => pure (f a)) before b after ↔ ∃ a, Ends x before a after ∧ b = f a := by
  simp only [ends_bind, ends_pure]
  constructor
  · intro h
    obtain ⟨a, mid, h, rfl, rfl⟩ := h
    exact ⟨a, h, rfl⟩
  · intro h
    obtain ⟨a, h, rfl⟩ := h
    exact ⟨a, after, h, rfl, rfl⟩

theorem not_ends_throw {e : RewriteError} {a : α} : ¬ Ends (throw e : Rewriting α) before a after := by
  intro h
  cases h

theorem ends_lift {x : Except RewriteError α} {a : α} :
    Ends (liftM x : Rewriting α) before a after ↔ x = .ok a ∧ after = before := by
  cases x with
  | error e =>
    constructor
    · intro h
      cases h
    · intro h
      obtain ⟨⟨⟩, _⟩ := h
  | ok b =>
    constructor
    · intro h
      cases h
      exact ⟨rfl, rfl⟩
    · intro h
      obtain ⟨⟨⟩, rfl⟩ := h
      rfl

theorem ends_modify {f : Trace → Trace} {u : PUnit} :
    Ends (modify f : Rewriting PUnit) before u after ↔ after = f before := by
  constructor
  · intro h
    cases h
    rfl
  · intro h
    subst h
    rfl

/-! ## Failing -/

/-- the error of a computation, if it fails -/
def errorOf : Except RewriteError α → Option RewriteError
  | .error e => some e
  | .ok _ => none

/-- the error of a rewrite that starts with this trace, if it fails -/
def refusalOf (x : Rewriting α) (before : Trace) : Option RewriteError := errorOf (x.run.run before).1

theorem refusalOf_eq_some_iff {x : Rewriting α} {e : RewriteError} :
    refusalOf x before = some e ↔ ∃ after, x.run.run before = (.error e, after) := by
  unfold refusalOf
  rcases x.run.run before with ⟨e' | a, after⟩
  · constructor
    · intro h
      cases h
      exact ⟨after, rfl⟩
    · intro h
      obtain ⟨_, h⟩ := h
      cases h
      rfl
  · constructor
    · intro h
      cases h
    · intro h
      obtain ⟨_, ⟨⟩⟩ := h

theorem refusalOf_eq_none_iff {x : Rewriting α} : refusalOf x before = none ↔ ∃ a after, Ends x before a after := by
  unfold refusalOf Ends
  rcases x.run.run before with ⟨e | a, after⟩
  · constructor
    · intro h
      cases h
    · intro h
      obtain ⟨_, _, ⟨⟩⟩ := h
  · exact ⟨fun _ => ⟨a, after, rfl⟩, fun _ => rfl⟩

theorem refusalOf_pure (a : α) (before : Trace) : refusalOf (pure a) before = none := rfl

theorem refusalOf_lift (x : Except RewriteError α) (before : Trace) : refusalOf (liftM x) before = errorOf x := by
  cases x <;> rfl

/-- the first step that fails decides -/
theorem refusalOf_bind {x : Rewriting α} {f : α → Rewriting β} {r : Option RewriteError}
    (h : ∀ a mid, Ends x before a mid → refusalOf (f a) mid = r) :
    refusalOf (x >>= f) before = (refusalOf x before).or r := by
  unfold refusalOf
  rw [ExceptT.run_bind, StateT.run_bind]
  rcases hx : x.run.run before with ⟨e | a, mid⟩
  · rfl
  · exact h a mid hx

/-! ## Trees -/

variable {settings : Settings} {language : Language}

theorem rewriteNode_plain_ends {form : Form} {parts : List Node} {t : Node} :
    Ends (rewriteNode settings language (.plain form parts)) before t after ↔
      ∃ parts', Ends (rewriteNodes settings language parts) before parts' after ∧ t = .plain form parts' := by
  rw [rewriteNode, ends_bind_pure]

theorem rewriteNode_element_ends {tag : TagName} {types children : List Node} {attributes : List Attribute}
    {closed : Bool} {t : Node} :
    Ends (rewriteNode settings language (.element tag types attributes closed children)) before t after ↔
      ∃ inside mid own mid' children', Ends (rewriteInside settings language attributes) before inside mid ∧
        Ends (rewriteAttributes settings language tag inside) mid own mid' ∧
        Ends (rewriteNodes settings language children) mid' children' after ∧
        t = .element tag types own closed children' := by
  rw [rewriteNode]
  constructor
  · intro h
    obtain ⟨inside, mid, hinside, h⟩ := ends_bind.1 h
    obtain ⟨own, mid', hown, h⟩ := ends_bind.1 h
    obtain ⟨children', hchildren, rfl⟩ := ends_bind_pure.1 h
    exact ⟨inside, mid, own, mid', children', hinside, hown, hchildren, rfl⟩
  · intro h
    obtain ⟨inside, mid, own, mid', children', hinside, hown, hchildren, rfl⟩ := h
    refine ends_bind.2 ⟨inside, mid, hinside, ?_⟩
    refine ends_bind.2 ⟨own, mid', hown, ?_⟩
    exact ends_bind_pure.2 ⟨children', hchildren, rfl⟩

theorem rewriteNodes_nil_ends {es : List Node} :
    Ends (rewriteNodes settings language []) before es after ↔ es = [] ∧ after = before := by
  rw [rewriteNodes, ends_pure]

theorem rewriteNodes_cons_ends {e : Node} {rest es : List Node} :
    Ends (rewriteNodes settings language (e :: rest)) before es after ↔
      ∃ e' mid rest', Ends (rewriteNode settings language e) before e' mid ∧
        Ends (rewriteNodes settings language rest) mid rest' after ∧ es = e' :: rest' := by
  rw [rewriteNodes]
  constructor
  · intro h
    obtain ⟨e', mid, he, h⟩ := ends_bind.1 h
    obtain ⟨rest', hrest, rfl⟩ := ends_bind_pure.1 h
    exact ⟨e', mid, rest', he, hrest, rfl⟩
  · intro h
    obtain ⟨e', mid, rest', he, hrest, rfl⟩ := h
    exact ends_bind.2 ⟨e', mid, he, ends_bind_pure.2 ⟨rest', hrest, rfl⟩⟩

theorem rewriteInside_nil_ends {as : List Attribute} :
    Ends (rewriteInside settings language []) before as after ↔ as = [] ∧ after = before := by
  rw [rewriteInside, ends_pure]

theorem rewriteInside_cons_ends {a : Attribute} {rest as : List Attribute} :
    Ends (rewriteInside settings language (a :: rest)) before as after ↔
      ∃ a' mid rest', Ends (rewriteInAttribute settings language a) before a' mid ∧
        Ends (rewriteInside settings language rest) mid rest' after ∧ as = a' :: rest' := by
  rw [rewriteInside]
  constructor
  · intro h
    obtain ⟨a', mid, ha, h⟩ := ends_bind.1 h
    obtain ⟨rest', hrest, rfl⟩ := ends_bind_pure.1 h
    exact ⟨a', mid, rest', ha, hrest, rfl⟩
  · intro h
    obtain ⟨a', mid, rest', ha, hrest, rfl⟩ := h
    exact ends_bind.2 ⟨a', mid, ha, ends_bind_pure.2 ⟨rest', hrest, rfl⟩⟩

theorem rewriteInAttribute_spread_ends {e : Node} {a : Attribute} :
    Ends (rewriteInAttribute settings language (.spread e)) before a after ↔
      ∃ e', Ends (rewriteNode settings language e) before e' after ∧ a = .spread e' := by
  rw [rewriteInAttribute, ends_bind_pure]

theorem rewriteInAttribute_named_ends {name : Text} {value : Value} {a : Attribute} :
    Ends (rewriteInAttribute settings language (.named name value)) before a after ↔
      ∃ value', Ends (rewriteInValue settings language value) before value' after ∧ a = .named name value' := by
  rw [rewriteInAttribute, ends_bind_pure]

theorem rewriteInValue_missing_ends {v : Value} :
    Ends (rewriteInValue settings language .missing) before v after ↔ v = .missing ∧ after = before := by
  rw [rewriteInValue, ends_pure]

theorem rewriteInValue_quoted_ends {written : Text} {v : Value} :
    Ends (rewriteInValue settings language (.quoted written)) before v after ↔
      v = .quoted written ∧ after = before := by
  rw [rewriteInValue, ends_pure]

theorem rewriteInValue_braced_ends {e : Node} {source : Text} {v : Value} :
    Ends (rewriteInValue settings language (.braced e source)) before v after ↔
      ∃ e', Ends (rewriteNode settings language e) before e' after ∧ v = .braced e' source := by
  rw [rewriteInValue, ends_bind_pure]

theorem rewriteInValue_markup_ends {e : Node} {source : Text} {v : Value} :
    Ends (rewriteInValue settings language (.markup e source)) before v after ↔
      ∃ e', Ends (rewriteNode settings language e) before e' after ∧ v = .markup e' source := by
  rw [rewriteInValue, ends_bind_pure]

end TerseStyle.Rewrite

/-
Lifting arguments out of a spelled chain. The scan of `liftFrom` counts parentheses; here its count is tied to the
spelling of chains.

Results:
- `liftFrom_payload`: inside a group, a balanced payload is read over without leaving the group.
- `liftFrom_group`: a group that is closed is closed behind a balanced payload, and that payload becomes the argument;
  nothing is lifted out of a group that is never closed.
- `arguments_liftFrom_spells`: a spelled row of links gives one argument for each call, in order and as it is written,
  before the arguments of what follows.
- `length_lt_of_mem_payloads`: a payload is shorter than the text that its call stands in.
-/
import TerseStyle.Chain.Skeleton
import TerseStyle.Proofs.Chain.Spelling

namespace TerseStyle.Chain

open Text (isBlankOnly)

theorem raw_classify (raw : Text) : (Argument.classify raw).raw = raw := by
  unfold Argument.classify
  split
  · rfl
  · split <;> rfl

theorem map_raw_classify (ps : List Text) : (ps.map Argument.classify).map Argument.raw = ps := by
  induction ps with
  | nil => rfl
  | cons p ps ih => rw [List.map_cons, List.map_cons, raw_classify, ih]

/-! ## Outside of groups -/

/-- text without an opening parenthesis is copied -/
theorem liftFrom_copied {next : Nat} {s t : Text} (h : ∀ c ∈ s, c ≠ '(') :
    liftFrom next 0 [] (s ++ t) = (liftFrom next 0 [] t).prepend s := by
  induction s with
  | nil => rfl
  | cons c s ih =>
    rw [List.cons_append, liftFrom_plain (h c List.mem_cons_self), ih fun d hd => h d (List.mem_cons_of_mem c hd)]
    rfl

/-! ## Inside a group -/

/-- one character inside a group at `depth + 1`, unless it closes the outermost group -/
theorem liftFrom_inside {next depth : Nat} {group : Text} {c : Char} {t : Text} (h : depth = 0 → c ≠ ')') :
    liftFrom next (depth + 1) group (c :: t) =
      liftFrom next (if c = '(' then depth + 2 else if c = ')' then depth else depth + 1) (group ++ [c]) t := by
  cases depth with
  | zero => rw [liftFrom, if_neg (h rfl), if_neg (h rfl)]
  | succ deeper => rw [liftFrom]

theorem liftFrom_close {next : Nat} {group t : Text} :
    liftFrom next 1 group (')' :: t) = ((liftFrom (next + 1) 0 [] t).prepend [')']).addArgument (.classify group) := by
  rw [liftFrom, if_pos rfl]

/-- inside a group, a balanced payload is read over -/
theorem liftFrom_payload {p : Text} (hp : Balanced p) (next depth : Nat) (group t : Text) :
    liftFrom next (depth + 1) group (p ++ t) = liftFrom next (depth + 1) (group ++ p) t := by
  induction hp generalizing depth group t with
  | nil => simp
  | @plain c p hopen hclose _ ih =>
    rw [List.cons_append, liftFrom_inside fun _ => hclose, if_neg hopen, if_neg hclose, ih]
    simp
  | @group inner rest _ _ ihInner ihRest =>
    -- one group deeper and back again
    calc liftFrom next (depth + 1) group ('(' :: (inner ++ ')' :: rest) ++ t)
        = liftFrom next (depth + 1) group ('(' :: (inner ++ (')' :: (rest ++ t)))) := by simp
      _ = liftFrom next (depth + 2) (group ++ ['(']) (inner ++ (')' :: (rest ++ t))) := by
          rw [liftFrom_inside fun _ => by decide, if_pos rfl]
      _ = liftFrom next (depth + 2) (group ++ ['('] ++ inner) (')' :: (rest ++ t)) := ihInner _ _ _
      _ = liftFrom next (depth + 1) (group ++ ['('] ++ inner ++ [')']) (rest ++ t) := by
          rw [liftFrom_inside fun h => absurd h (by simp), if_neg (by decide), if_pos rfl]
      _ = liftFrom next (depth + 1) (group ++ ['('] ++ inner ++ [')'] ++ rest) t := ihRest _ _ _
      _ = liftFrom next (depth + 1) (group ++ '(' :: (inner ++ ')' :: rest)) t := by simp

/-- what can stand in front of the parenthesis that closes a group, with `depth` more groups open inside it: balanced
texts, one behind each of their ends -/
def Closes : Nat → Text → Prop
  | 0, t => Balanced t
  | depth + 1, t => ∃ a b, t = a ++ ')' :: b ∧ Balanced a ∧ Closes depth b

theorem Closes.plain {depth : Nat} {c : Char} {t : Text} (hopen : c ≠ '(') (hclose : c ≠ ')') (h : Closes depth t) :
    Closes depth (c :: t) := by
  cases depth with
  | zero => exact Balanced.plain hopen hclose h
  | succ depth =>
    obtain ⟨a, b, rfl, ha, hb⟩ := h
    exact ⟨c :: a, b, rfl, ha.plain hopen hclose, hb⟩

theorem Closes.group {depth : Nat} {inner t : Text} (hinner : Balanced inner) (h : Closes depth t) :
    Closes depth ('(' :: (inner ++ ')' :: t)) := by
  cases depth with
  | zero => exact Balanced.group hinner h
  | succ depth =>
    obtain ⟨a, b, rfl, ha, hb⟩ := h
    exact ⟨'(' :: (inner ++ ')' :: a), b, by simp, hinner.group ha, hb⟩

/-- the scan inside a group either loses a group that is never closed, or finds its end behind matching parentheses -/
theorem liftFrom_closes (next : Nat) (t : Text) (depth : Nat) (group : Text) :
    liftFrom next (depth + 1) group t = ⟨[], []⟩ ∨ ∃ inner rest, t = inner ++ ')' :: rest ∧ Closes depth inner ∧
      liftFrom next (depth + 1) group t =
        ((liftFrom (next + 1) 0 [] rest).prepend [')']).addArgument (.classify (group ++ inner)) := by
  -- the depth counts the groups open inside the outermost one, so that only a mark at depth 0 ends the scan
  induction t generalizing depth group with
  | nil => exact Or.inl (liftFrom_nil _ _ _)
  | cons c t ih =>
    by_cases hend : depth = 0 ∧ c = ')'
    · obtain ⟨rfl, rfl⟩ := hend
      exact Or.inr ⟨[], t, rfl, Balanced.nil, by rw [liftFrom_close, List.append_nil]⟩
    · have hstep := @liftFrom_inside next depth group c t fun h0 hc => hend ⟨h0, hc⟩
      by_cases hopen : c = '('
      · subst hopen
        rw [if_pos rfl] at hstep
        rcases ih (depth + 1) (group ++ ['(']) with h | ⟨inner, rest, rfl, ⟨a, b, rfl, ha, hb⟩, h⟩
        · exact Or.inl (hstep.trans h)
        · exact Or.inr ⟨'(' :: (a ++ ')' :: b), rest, by simp, hb.group ha, by rw [hstep, h]; simp⟩
      · by_cases hclose : c = ')'
        · subst hclose
          rw [if_neg (by decide), if_pos rfl] at hstep
          obtain ⟨deeper, rfl⟩ : ∃ deeper, depth = deeper + 1 :=
            Nat.exists_eq_succ_of_ne_zero fun h0 => hend ⟨h0, rfl⟩
          rcases ih deeper (group ++ [')']) with h | ⟨inner, rest, rfl, hinner, h⟩
          · exact Or.inl (hstep.trans h)
          · exact Or.inr ⟨')' :: inner, rest, rfl, ⟨[], inner, rfl, Balanced.nil, hinner⟩, by rw [hstep, h]; simp⟩
        · rw [if_neg hopen, if_neg hclose] at hstep
          rcases ih depth (group ++ [c]) with h | ⟨inner, rest, rfl, hinner, h⟩
          · exact Or.inl (hstep.trans h)
          · exact Or.inr ⟨c :: inner, rest, rfl, hinner.plain hopen hclose, by rw [hstep, h]; simp⟩

/-- a group that is closed has a balanced payload, which becomes its argument; one that is not is lost -/
theorem liftFrom_group (next : Nat) (t : Text) :
    liftFrom next 1 [] t = ⟨[], []⟩ ∨ ∃ payload rest, t = payload ++ ')' :: rest ∧ Balanced payload ∧
      liftFrom next 1 [] t = ((liftFrom (next + 1) 0 [] rest).prepend [')']).addArgument (.classify payload) :=
  liftFrom_closes next t 0 []

/-! ## Spelled links -/

theorem ne_open_of_isNameChar {c : Char} (h : isNameChar c = true) : c ≠ '(' := by
  intro hc
  rw [hc] at h
  exact absurd h (by decide)

theorem ne_open_of_isBlankOnly {gap : Text} (h : isBlankOnly gap = true) : ∀ c ∈ gap, c ≠ '(' := by
  intro c hc hopen
  have hblank : isBlank c = true := List.all_eq_true.1 h c hc
  rw [hopen] at hblank
  exact absurd hblank (by decide)

theorem liftFrom_access {next : Nat} {name t rest : Text} (h : (SourceLink.access name).Spelled t) :
    liftFrom next 0 [] (t ++ rest) = (liftFrom next 0 [] rest).prepend t := by
  cases h with
  | @access gap _ hgap _ hname =>
    apply liftFrom_copied
    intro c hc
    rw [List.mem_cons, List.mem_append] at hc
    rcases hc with rfl | hc | hc
    · decide
    · exact ne_open_of_isBlankOnly hgap c hc
    · exact ne_open_of_isNameChar (hname c hc)

theorem liftFrom_call {next : Nat} {payload rest : Text} (h : Balanced payload) :
    liftFrom next 0 [] ('(' :: (payload ++ [')']) ++ rest) =
      ((liftFrom (next + 1) 0 [] rest).prepend (callMarker next)).addArgument (.classify payload) := by
  have hsplit : '(' :: (payload ++ [')']) ++ rest = '(' :: (payload ++ (')' :: rest)) := by simp
  rw [hsplit, liftFrom_open, liftFrom_payload h, liftFrom_close]
  simp [Lifted.prepend, Lifted.addArgument, callMarker]

/-- a spelled row of links gives the payloads of its calls as arguments -/
theorem arguments_liftFrom_spells {ls : List SourceLink} {body : Text} (h : Spells ls body) (next : Nat) (rest : Text) :
    (liftFrom next 0 [] (body ++ rest)).arguments =
      (payloads ls).map Argument.classify ++ (liftFrom (next + (payloads ls).length) 0 [] rest).arguments := by
  induction h generalizing next with
  | nil => rfl
  | @cons gap t more link links hgap hlink _ ih =>
    rw [List.append_assoc, List.append_assoc, liftFrom_copied (ne_open_of_isBlankOnly hgap)]
    cases link with
    | access name =>
      rw [liftFrom_access hlink]
      exact ih next
    | call payload =>
      cases hlink with
      | call hbalanced =>
        rw [liftFrom_call hbalanced]
        change Argument.classify payload :: (liftFrom (next + 1) 0 [] (more ++ rest)).arguments = _
        have hnext : next + (payload :: payloads links).length = next + 1 + (payloads links).length := by
          rw [List.length_cons, Nat.add_right_comm, Nat.add_assoc]
        rw [ih (next + 1), payloads, List.map_cons, List.cons_append, hnext]

theorem arguments_lift_chain {root t : Text} {ls : List SourceLink} (h : SpelledChain root ls t) (offset : Nat) :
    (lift t offset).arguments = (payloads ls).map Argument.classify := by
  obtain ⟨_, trail, rfl, htrail, lead, body, rfl, hlead, hroot, hbody⟩ := h
  have hfront : ∀ c ∈ lead ++ root, c ≠ '(' := by
    intro c hc
    rcases List.mem_append.1 hc with hc | hc
    · exact ne_open_of_isBlankOnly hlead c hc
    · exact ne_open_of_isNameChar (hroot c hc)
  have hsplit : lead ++ (root ++ body) ++ trail = (lead ++ root) ++ (body ++ (trail ++ [])) := by simp
  rw [lift, hsplit, liftFrom_copied hfront]
  change (liftFrom offset 0 [] (body ++ (trail ++ []))).arguments = _
  rw [arguments_liftFrom_spells hbody, liftFrom_copied (ne_open_of_isBlankOnly htrail), liftFrom_nil]
  exact List.append_nil _

theorem raw_arguments_lift_chain {root t : Text} {ls : List SourceLink} (h : SpelledChain root ls t) (offset : Nat) :
    (lift t offset).arguments.map Argument.raw = payloads ls := by
  rw [arguments_lift_chain h, map_raw_classify]

/-- a payload is shorter than the text that its call stands in -/
theorem length_lt_of_mem_payloads {ls : List SourceLink} {body : Text} (h : Spells ls body) {p : Text}
    (hp : p ∈ payloads ls) : p.length < body.length := by
  induction h with
  | nil => cases hp
  | @cons gap t rest link links _ hlink _ ih =>
    cases link with
    | access name =>
      have := ih hp
      simp only [List.length_append]; omega
    | call payload =>
      cases hlink with
      | call =>
        rcases List.mem_cons.1 hp with rfl | hp
        · simp only [List.length_append, List.length_cons, List.length_nil]; omega
        · have := ih hp
          simp only [List.length_append]; omega

theorem SpelledChain.length_lt {root t : Text} {ls : List SourceLink} (h : SpelledChain root ls t) {p : Text}
    (hp : p ∈ payloads ls) : p.length < t.length := by
  obtain ⟨_, trail, rfl, _, lead, body, rfl, _, _, hbody⟩ := h
  have := length_lt_of_mem_payloads hbody hp
  simp only [List.length_append]; omega

end TerseStyle.Chain

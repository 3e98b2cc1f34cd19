/-
Splicing as the inverse of lifting. The arguments go back in reverse order, each at the first place where its marker
stands. When the marker of one argument is looked for, the later arguments are back already, whatever they hold, but
the text in front of the marker is still skeleton: there every opening parenthesis starts a marker of its own. So the
first place is the right one, even if arguments look like markers themselves.

Results:
- `replaceFirst_marker`: in front of another marker, and of text without opening parentheses, a marker is not found.
- `splice_lifted`: a lifted text is put back together up to a group that is never closed, of which the open marker stays.
- `splice_lift`: a text at whose end all groups are closed is put back as it was.
-/
import TerseStyle.Proofs.Chain.FrontEnd

namespace TerseStyle.Chain

open Text (replaceFirst)

/-! ## The depth of a text -/

/-- the nesting depth behind one more character; outside of all groups a closing parenthesis changes nothing -/
def depthBehind (depth : Nat) (c : Char) : Nat :=
  if c = '(' then depth + 1 else if c = ')' then depth - 1 else depth

/-- the nesting depth at the end of a text that is scanned from `depth` on -/
def depthAtEnd (depth : Nat) (t : Text) : Nat := t.foldl depthBehind depth

theorem depthAtEnd_cons (depth : Nat) (c : Char) (t : Text) :
    depthAtEnd depth (c :: t) = depthAtEnd (depthBehind depth c) t := rfl

theorem depthAtEnd_append (depth : Nat) (s t : Text) :
    depthAtEnd depth (s ++ t) = depthAtEnd (depthAtEnd depth s) t := by
  simp [depthAtEnd, List.foldl_append]

theorem depthBehind_plain {depth : Nat} {c : Char} (hopen : c ≠ '(') (hclose : c ≠ ')') :
    depthBehind depth c = depth := by
  rw [depthBehind, if_neg hopen, if_neg hclose]

/-- a balanced text ends at the depth it starts from -/
theorem Balanced.depthAtEnd {p : Text} (hp : Balanced p) (depth : Nat) : depthAtEnd depth p = depth := by
  induction hp generalizing depth with
  | nil => rfl
  | plain hopen hclose _ ih => rw [depthAtEnd_cons, depthBehind_plain hopen hclose, ih]
  | @group inner rest _ _ ihInner ihRest =>
    calc Chain.depthAtEnd depth ('(' :: (inner ++ ')' :: rest))
        = Chain.depthAtEnd (Chain.depthAtEnd (depth + 1) inner) (')' :: rest) := depthAtEnd_append (depth + 1) inner _
      _ = Chain.depthAtEnd depth rest := by rw [ihInner]; rfl
      _ = depth := ihRest depth

/-- a group that the scan never closes is open at every place -/
theorem depthAtEnd_of_lost {next depth : Nat} {group t : Text} (h : liftFrom next (depth + 1) group t = ⟨[], []⟩) :
    ∀ p, p <+: t → depthAtEnd (depth + 1) p ≠ 0 := by
  induction t generalizing depth group with
  | nil =>
    intro p hp
    rw [List.prefix_nil.1 hp]
    exact Nat.succ_ne_zero depth
  | cons c t ih =>
    intro p hp
    rcases List.prefix_cons_iff.1 hp with rfl | ⟨q, rfl, hq⟩
    · exact Nat.succ_ne_zero depth
    by_cases hend : depth = 0 ∧ c = ')'
    · -- here the group would be closed, and its argument lifted
      obtain ⟨rfl, rfl⟩ := hend
      rw [liftFrom_close] at h
      cases congrArg Lifted.arguments h
    · rw [liftFrom_inside fun h0 hc => hend ⟨h0, hc⟩] at h
      rw [depthAtEnd_cons, depthBehind]
      by_cases hopen : c = '('
      · rw [if_pos hopen] at h ⊢
        exact ih h q hq
      · by_cases hclose : c = ')'
        · obtain ⟨deeper, rfl⟩ : ∃ deeper, depth = deeper + 1 :=
            Nat.exists_eq_succ_of_ne_zero fun h0 => hend ⟨h0, hclose⟩
          rw [if_neg hopen, if_pos hclose] at h ⊢
          exact ih h q hq
        · rw [if_neg hopen, if_neg hclose] at h ⊢
          exact ih h q hq

/-! ## Looking for a marker -/

theorem ofNat_injective {m n : Nat} (h : Text.ofNat m = Text.ofNat n) : m = n :=
  calc m = Nat.ofDigitChars 10 (Nat.toDigits 10 m) 0 := Nat.ofDigitChars_ten_toDigits.symm
    _ = Nat.ofDigitChars 10 (Nat.toDigits 10 n) 0 := congrArg (Nat.ofDigitChars 10 · 0) h
    _ = n := Nat.ofDigitChars_ten_toDigits

/-- a marker starts with one index only, because a quote ends its digits -/
theorem callMarker_unique {m n : Nat} {t : Text} (h : callMarker m <+: callMarker n ++ t) : m = n := by
  obtain ⟨rest, h⟩ := h
  have hdigits : Text.ofNat m ++ '"' :: (')' :: rest) = Text.ofNat n ++ '"' :: (')' :: t) := by
    simpa [callMarker, placeholder] using h
  have hread (k : Nat) (rest : Text) : (Text.ofNat k ++ '"' :: rest).takeWhile Char.isDigit = Text.ofNat k := by
    rw [List.takeWhile_append_of_pos fun c hc => Text.isDigit_of_mem_ofNat hc]
    simp
  apply ofNat_injective
  calc Text.ofNat m
      = (Text.ofNat m ++ '"' :: (')' :: rest)).takeWhile Char.isDigit := (hread m _).symm
    _ = (Text.ofNat n ++ '"' :: (')' :: t)).takeWhile Char.isDigit := by rw [hdigits]
    _ = Text.ofNat n := hread n _

/-- a text that does not start with the piece is passed over by one character -/
theorem replaceFirst_cons {piece replacement : Text} {c : Char} {t : Text} (h : ¬ piece <+: c :: t) :
    replaceFirst piece replacement (c :: t) = c :: replaceFirst piece replacement t := by
  have hnone : piece.isPrefixOf? (c :: t) = none := by
    cases hfound : piece.isPrefixOf? (c :: t) with
    | none => rfl
    | some rest => exact absurd ⟨rest, List.isPrefixOf?_eq_some_iff_append_eq.1 hfound⟩ h
  rw [replaceFirst, hnone]

theorem replaceFirst_copied (index : Nat) (replacement : Text) {front t : Text} (h : ∀ c ∈ front, c ≠ '(') :
    replaceFirst (callMarker index) replacement (front ++ t) =
      front ++ replaceFirst (callMarker index) replacement t := by
  induction front with
  | nil => rfl
  | cons c front ih =>
    have hstart : ¬ callMarker index <+: c :: (front ++ t) := by
      intro hprefix
      obtain ⟨rest, heq⟩ := hprefix
      exact h c List.mem_cons_self (List.cons.inj heq).1.symm
    rw [List.cons_append, replaceFirst_cons hstart, ih fun d hd => h d (List.mem_cons_of_mem c hd)]
    rfl

theorem replaceFirst_found {piece replacement rest after : Text} {c : Char}
    (h : piece.isPrefixOf? (c :: rest) = some after) : replaceFirst piece replacement (c :: rest) = replacement ++ after := by
  rw [replaceFirst, h]

/-- a marker is found where it stands first -/
theorem replaceFirst_self (index : Nat) (replacement t : Text) :
    replaceFirst (callMarker index) replacement (callMarker index ++ t) = replacement ++ t := by
  apply replaceFirst_found
  exact List.isPrefixOf?_eq_some_iff_append_eq.2 rfl

/-- the marker of another argument is passed over -/
theorem replaceFirst_marker {m n : Nat} (h : m ≠ n) (replacement t : Text) :
    replaceFirst (callMarker m) replacement (callMarker n ++ t) =
      callMarker n ++ replaceFirst (callMarker m) replacement t := by
  have hstart : ¬ callMarker m <+: '(' :: ('"' :: placeholder n ++ ['"', ')'] ++ t) := by
    intro hprefix
    exact h (callMarker_unique hprefix)
  have hinside : ∀ c ∈ '"' :: placeholder n ++ ['"', ')'], c ≠ '(' := by
    intro c hc
    rw [List.cons_append, List.mem_cons, List.mem_append] at hc
    rcases hc with rfl | hc | hc
    · decide
    · exact ne_of_mem_placeholder hc (by decide) rfl
    · simp only [List.mem_cons, List.not_mem_nil, or_false] at hc
      rcases hc with rfl | rfl <;> decide
  calc replaceFirst (callMarker m) replacement (callMarker n ++ t)
      = '(' :: replaceFirst (callMarker m) replacement ('"' :: placeholder n ++ ['"', ')'] ++ t) :=
        replaceFirst_cons hstart
    _ = callMarker n ++ replaceFirst (callMarker m) replacement t := by
        rw [replaceFirst_copied m replacement hinside]; rfl

/-! ## Splicing -/

theorem splice_cons (skeleton : Text) (a : Argument) (more : List Argument) (next : Nat) :
    splice skeleton (a :: more) next =
      replaceFirst (callMarker next) ('(' :: a.raw ++ [')']) (splice skeleton more (next + 1)) := by
  rw [splice, List.zipIdx_cons, List.foldr_cons]; rfl

/-- text in which no marker from `next` on is found stays in front of what is spliced -/
theorem splice_behind {front : Text} {next : Nat}
    (h : ∀ index, next ≤ index → ∀ replacement t, replaceFirst (callMarker index) replacement (front ++ t) =
      front ++ replaceFirst (callMarker index) replacement t)
    (skeleton : Text) (arguments : List Argument) :
    splice (front ++ skeleton) arguments next = front ++ splice skeleton arguments next := by
  induction arguments generalizing next with
  | nil => rfl
  | cons a more ih =>
    have hlater := ih fun index hindex => h index (Nat.le_of_succ_le hindex)
    rw [splice_cons, splice_cons, hlater, h next (Nat.le_refl next)]

theorem splice_plain {c : Char} (hc : c ≠ '(') (skeleton : Text) (arguments : List Argument) (next : Nat) :
    splice (c :: skeleton) arguments next = c :: splice skeleton arguments next := by
  have hfront : ∀ d ∈ [c], d ≠ '(' := by simpa using hc
  change splice ([c] ++ skeleton) arguments next = [c] ++ splice skeleton arguments next
  apply splice_behind
  intro index _ replacement t
  exact replaceFirst_copied index replacement hfront

/-- the first argument goes to its marker in front, behind which the later ones are put back -/
theorem splice_group (skeleton : Text) (a : Argument) (more : List Argument) (next : Nat) :
    splice (callMarker next ++ skeleton) (a :: more) next =
      '(' :: a.raw ++ [')'] ++ splice skeleton more (next + 1) := by
  have hlater : splice (callMarker next ++ skeleton) more (next + 1) =
      callMarker next ++ splice skeleton more (next + 1) := by
    apply splice_behind
    intro index hindex replacement t
    exact replaceFirst_marker (Nat.ne_of_gt hindex) replacement t
  rw [splice_cons, hlater, replaceFirst_self]

/-- the last group of a text, behind `front`, is open up to its end -/
structure OpenBehind (t front group : Text) : Prop where
  text : t = front ++ '(' :: group
  closed : depthAtEnd 0 front = 0
  opened : ∀ p, p <+: group → depthAtEnd 1 p ≠ 0

/-- what is left of the group with this index if it is never closed -/
def openMarker (index : Nat) : Text := '(' :: '"' :: placeholder index ++ ['"']

/-- how a text comes back: as it was if all its groups are closed, else up to its open group, of which the marker is left -/
def PutBack (t result : Text) (index : Nat) : Prop :=
  (depthAtEnd 0 t = 0 ∧ result = t) ∨ ∃ front group, OpenBehind t front group ∧ result = front ++ openMarker index

theorem OpenBehind.depth_ne {t front group : Text} (h : OpenBehind t front group) : depthAtEnd 0 t ≠ 0 := by
  rw [h.text, depthAtEnd_append, h.closed]
  exact h.opened group List.prefix_rfl

/-- closed groups in front come back with what follows them -/
theorem PutBack.behind {s t result : Text} {index : Nat} (hs : depthAtEnd 0 s = 0) (h : PutBack t result index) :
    PutBack (s ++ t) (s ++ result) index := by
  rcases h with ⟨hdepth, rfl⟩ | ⟨front, group, hopen, rfl⟩
  · exact Or.inl ⟨by rw [depthAtEnd_append, hs, hdepth], rfl⟩
  · have hfront : depthAtEnd 0 (s ++ front) = 0 := by rw [depthAtEnd_append, hs, hopen.closed]
    exact Or.inr ⟨s ++ front, group, ⟨by rw [hopen.text, List.append_assoc], hfront, hopen.opened⟩,
      (List.append_assoc _ _ _).symm⟩

/-- **What is lifted out of a text is put back into its place**, up to a group that is never closed. -/
theorem splice_lifted (next : Nat) (t : Text) :
    PutBack t (splice (liftFrom next 0 [] t).skeleton (liftFrom next 0 [] t).arguments next)
      (next + (liftFrom next 0 [] t).arguments.length) := by
  -- a group takes many characters at once, so that the induction is on the length
  induction hn : t.length using Nat.strongRecOn generalizing t next with
  | ind n ih =>
    subst hn
    cases t with
    | nil => exact Or.inl ⟨rfl, rfl⟩
    | cons c t =>
      by_cases hopen : c = '('
      · subst hopen
        rcases liftFrom_group next t with hlost | ⟨payload, rest, rfl, hpayload, hgroup⟩
        · -- nothing was lifted behind the open group, and nothing is put back
          have hl : liftFrom next 0 [] ('(' :: t) = ⟨openMarker next, []⟩ := by
            rw [liftFrom_open, hlost]
            simp [Lifted.prepend, openMarker]
          rw [hl]
          exact Or.inr ⟨[], t, ⟨rfl, rfl, depthAtEnd_of_lost hlost⟩, rfl⟩
        · have hdepth : depthAtEnd 0 ('(' :: (payload ++ [')'])) = 0 := (Balanced.group hpayload .nil).depthAtEnd 0
          have hsplit : '(' :: (payload ++ ')' :: rest) = '(' :: (payload ++ [')']) ++ rest := by simp
          have hrest := (ih rest.length (by simp; omega) (next + 1) rest rfl).behind hdepth
          rw [hsplit, liftFrom_call hpayload]
          change PutBack _ (splice (callMarker next ++ (liftFrom (next + 1) 0 [] rest).skeleton)
            (.classify payload :: (liftFrom (next + 1) 0 [] rest).arguments) next) (next + (_ + 1))
          rw [splice_group, raw_classify, ← Nat.add_assoc, Nat.add_right_comm]
          exact hrest
      · have hdepth : depthAtEnd 0 [c] = 0 := by
          rw [depthAtEnd_cons, depthBehind, if_neg hopen]
          split <;> rfl
        rw [liftFrom_plain hopen]
        change PutBack ([c] ++ t) (splice (c :: (liftFrom next 0 [] t).skeleton) (liftFrom next 0 [] t).arguments next) _
        rw [splice_plain hopen]
        exact (ih t.length (by simp) next t rfl).behind hdepth

/-- **Splicing undoes lifting.** Whatever its arguments hold and wherever the numbering starts, a text that is scanned to
depth zero comes back character for character; a closing parenthesis outside of all groups does no harm. A text that ends
inside a group has lost that group: it comes back up to the group, and the marker of the group is left open behind it. -/
theorem splice_lift (t : Text) (offset : Nat) :
    (depthAtEnd 0 t = 0 → splice (lift t offset).skeleton (lift t offset).arguments offset = t) ∧
      (depthAtEnd 0 t ≠ 0 → ∃ front group, OpenBehind t front group ∧
        splice (lift t offset).skeleton (lift t offset).arguments offset =
          front ++ openMarker (offset + (lift t offset).arguments.length)) := by
  rcases splice_lifted offset t with ⟨hdepth, hspliced⟩ | ⟨front, group, hopen, hspliced⟩
  · exact ⟨fun _ => hspliced, fun hne => absurd hdepth hne⟩
  · exact ⟨fun hdepth => absurd hdepth hopen.depth_ne, fun _ => ⟨front, group, hopen, hspliced⟩⟩

/-- ten arguments behind a stray parenthesis, among them markers of an earlier, a later and their own argument; the digits
of the last index start with those of the first -/
theorem splice_lift_forged :
    let t := ")a((\"COUNT2\")).b((\"COUNT1\"))(c)(d)(e)(f)(g)(h)(i)((\"COUNT10\"))".toList
    depthAtEnd 0 t = 0 ∧ (lift t 1).arguments.length = 10 ∧
      splice (lift t 1).skeleton (lift t 1).arguments 1 = t := by
  intro t
  have hdepth : depthAtEnd 0 t = 0 := by decide
  exact ⟨hdepth, by decide, (splice_lift t 1).1 hdepth⟩

end TerseStyle.Chain

/-
The pieces of a class template. Every expression ends a piece, and the last piece stands behind all of them. What counts
of the segments is the row of characters and expressions that they stand for: putting one more segment in front puts its
row in front. Since the pieces are escaped apart from each other and what follows one is a dollar sign or a backtick,
never a brace or a line feed, nothing of a piece is read together with what is behind it.

Results:
- `Interleaved.items_ofSegments`, `Interleaved.expressions_ofSegments`: the row and the expressions of a template.
- `readsTemplate_templateBody`: what a template literal with pieces of escaped text reads as.
- `classTemplate_pieces`: the template that is made of segments.
-/
import TerseStyle.Proofs.Rewrite.Template
import TerseStyle.Proofs.Script.References

namespace TerseStyle.Rewrite

open Script

/-! ## Rows of characters and expressions -/

namespace Segment

/-- the expression of a segment, if it is one -/
def expression? : Segment → Option Node
  | text _ => none
  | expression e => some e

/-- the characters and expressions that a segment stands for -/
def items : Segment → List (Char ⊕ Node)
  | text t => t.map .inl
  | expression e => [.inr e]

end Segment

/-- texts with expressions between them as a row -/
def interleave : List Text → List Node → List (Char ⊕ Node)
  | [], _ => []
  | t :: texts, [] => t.map .inl ++ interleave texts []
  | t :: texts, e :: es => t.map .inl ++ .inr e :: interleave texts es

namespace Interleaved

variable {segments : List Segment}

/-- the expressions between the texts -/
def expressions (i : Interleaved) : List Node := i.rest.map Prod.fst

/-- texts and expressions as a row -/
def items (i : Interleaved) : List (Char ⊕ Node) :=
  i.first.map .inl ++ i.rest.flatMap fun p => .inr p.1 :: p.2.map .inl

theorem items_addText (t : Text) (i : Interleaved) : (i.addText t).items = t.map .inl ++ i.items := by
  rw [items, addText, List.map_append, List.append_assoc, items]

/-- **A segment in front** puts its row in front. -/
theorem items_add (s : Segment) (i : Interleaved) : (i.add s).items = s.items ++ i.items := by
  cases s with
  | text t => exact items_addText t i
  | expression e => rfl

theorem ofSegments_cons_cons (s next : Segment) (more : List Segment) :
    ofSegments (s :: next :: more) = add s (addText [' '] (ofSegments (next :: more))) := rfl

/-- the row of a template is made of those of its segments, with a space between each two -/
theorem items_ofSegments : (ofSegments segments).items = [.inl ' '].intercalate (segments.map Segment.items) := by
  induction segments with
  | nil => rfl
  | cons s rest ih =>
    cases rest with
    | nil =>
      have hsingle : (ofSegments [s]).items = s.items ++ [] := items_add s ⟨[], []⟩
      rw [hsingle, List.append_nil, List.map_singleton, List.intercalate_singleton]
    | cons next more =>
      calc (ofSegments (s :: next :: more)).items
          = s.items ++ ([.inl ' '] ++ (ofSegments (next :: more)).items) := by
            rw [ofSegments_cons_cons, items_add, items_addText, List.map_singleton]
        _ = s.items ++ [.inl ' '] ++ [.inl ' '].intercalate (next.items :: more.map Segment.items) := by
            rw [ih, List.append_assoc, List.map_cons]
        _ = [.inl ' '].intercalate ((s :: next :: more).map Segment.items) := by
            rw [← List.intercalate_cons_cons, List.map_cons, List.map_cons]

theorem expressions_add (s : Segment) (i : Interleaved) :
    (i.add s).expressions = s.expression?.toList ++ i.expressions := by
  cases s <;> rfl

/-- the expressions of a template are those of its segments -/
theorem expressions_ofSegments : (ofSegments segments).expressions = segments.filterMap Segment.expression? := by
  induction segments with
  | nil => rfl
  | cons s rest ih =>
    have hfront : (ofSegments (s :: rest)).expressions = s.expression?.toList ++ (ofSegments rest).expressions := by
      cases rest with
      | nil => exact expressions_add s ⟨[], []⟩
      | cons next more => exact expressions_add s (addText [' '] (ofSegments (next :: more)))
    rw [hfront, ih, List.filterMap_cons]
    cases s.expression? <;> rfl

/-! ## Pieces -/

theorem length_piecesFrom (t : Text) (rest : List (Node × Text)) : (piecesFrom t rest).length = rest.length + 1 := by
  induction rest generalizing t with
  | nil => rfl
  | cons p rest ih => rw [piecesFrom, List.length_cons, ih, List.length_cons]

/-- the last piece is marked, and no other -/
theorem isLast_piecesFrom (t : Text) (rest : List (Node × Text)) :
    (piecesFrom t rest).map (·.isLast) = List.replicate rest.length false ++ [true] := by
  induction rest generalizing t with
  | nil => rfl
  | cons p rest ih => rw [piecesFrom, List.map_cons, ih]; rfl

/-- a piece is written as its text, escaped -/
theorem written_of_mem {t : Text} {rest : List (Node × Text)} {piece : TemplatePiece} (h : piece ∈ piecesFrom t rest) :
    piece.written = escapeTemplate piece.text := by
  induction rest generalizing t with
  | nil =>
    obtain rfl := List.mem_singleton.1 h
    rfl
  | cons p rest ih =>
    rcases List.mem_cons.1 h with rfl | h
    · rfl
    · exact ih h

/-- the texts of the pieces and the expressions, one after the other, are the row -/
theorem interleave_pieces (i : Interleaved) : interleave (i.pieces.map (·.text)) i.expressions = i.items := by
  obtain ⟨first, rest⟩ := i
  unfold pieces expressions items
  induction rest generalizing first with
  | nil => rfl
  | cons p rest ih =>
    have hrest := ih p.2
    simp only [piecesFrom, List.map_cons, interleave, hrest, List.flatMap_cons]
    rfl

end Interleaved

/-! ## Literals of pieces -/

/-- what stands behind the backtick of a template: pieces as written, the codes of expressions between them, and the
closing backtick -/
def templateBody : List Text → List Text → Text
  | [], _ => ['\x60']
  | piece :: pieces, [] => piece ++ templateBody pieces []
  | piece :: pieces, code :: codes => piece ++ '$' :: '{' :: (code ++ '}' :: templateBody pieces codes)

/-- the parts that texts with the codes of expressions between them are -/
def templateParts : List Text → List Text → List QuotedPart
  | [], _ => []
  | t :: texts, [] => plainParts t ++ templateParts texts []
  | t :: texts, code :: codes => plainParts t ++ .interpolation code :: templateParts texts codes

variable {X : ExpressionSyntax} {texts codes : List Text}

/-- **A template of escaped texts** reads as these texts with the expressions between them: what follows a text is a
dollar sign or the closing backtick, so its last character stands for itself. -/
theorem readsTemplate_templateBody (hlength : texts.length = codes.length + 1)
    (hcodes : ∀ code ∈ codes, X.Complete code) (behind : Text) :
    ReadsTemplate X (templateBody (texts.map escapeTemplate) codes ++ behind)
      (templateParts (texts.map lineFeeds) codes) behind := by
  induction codes generalizing texts with
  | nil =>
    obtain ⟨t, rfl⟩ := List.length_eq_one_iff.1 hlength
    have hclose : ReadsTemplate X ('\x60' :: behind) [] behind := .close
    have hread := readsTemplate_escapeTemplate t (by simp) (by simp) hclose
    simp only [List.map_singleton, templateBody, templateParts, List.append_assoc]
    exact hread
  | cons code codes ih =>
    obtain ⟨t, texts, rfl⟩ := List.exists_cons_of_length_eq_add_one hlength
    rw [List.forall_mem_cons] at hcodes
    have hrest := ih (Nat.succ.inj hlength) hcodes.2
    have hread := readsTemplate_escapeTemplate t (by simp) (by simp) (.interpolation hcodes.1 hrest)
    simp only [List.map_cons, templateBody, templateParts, List.append_assoc, List.cons_append]
    exact hread

/-- **The template of segments.** A template is made of any segments. It has one more piece than expressions, the last
piece is marked and no other, and the expressions are those of the segments, in order. The texts of its pieces with the
expressions between them are the segments with a space between each two. As written, each piece gives its own text, with
line feeds at its line ends. With any complete expressions between them, the pieces read as their own texts and these
expressions and end at the closing backtick: nothing opens an interpolation but what stands between the pieces, whatever
character a piece ends in. -/
theorem classTemplate_pieces (segments : List Segment) :
    let pieces := (Interleaved.ofSegments segments).pieces
    let expressions := segments.filterMap Segment.expression?
    classTemplate segments = .plain (.template (pieces.map (·.written))) expressions ∧
      pieces.length = expressions.length + 1 ∧
      pieces.map (·.isLast) = List.replicate expressions.length false ++ [true] ∧
      interleave (pieces.map (·.text)) expressions = [.inl ' '].intercalate (segments.map Segment.items) ∧
      (∀ piece ∈ pieces, (∀ t, Cooked piece.written t ↔ t = lineFeeds piece.text) ∧
        ('\r' ∉ piece.text → lineFeeds piece.text = piece.text)) ∧
      ∀ (X : ExpressionSyntax) (codes : List Text), codes.length = expressions.length →
        (∀ code ∈ codes, X.Complete code) → ∀ behind parts rest,
        (ReadsTemplate X (templateBody (pieces.map (·.written)) codes ++ behind) parts rest ↔
          parts = templateParts (pieces.map fun piece => lineFeeds piece.text) codes ∧ rest = behind) := by
  intro pieces expressions
  have hexpressions : (Interleaved.ofSegments segments).expressions = expressions :=
    Interleaved.expressions_ofSegments
  have hcount : (Interleaved.ofSegments segments).rest.length = expressions.length := by
    rw [← hexpressions, Interleaved.expressions, List.length_map]
  have hlength : pieces.length = expressions.length + 1 := hcount ▸ Interleaved.length_piecesFrom _ _
  have hwritten : ∀ piece ∈ pieces, piece.written = escapeTemplate piece.text := fun _ => Interleaved.written_of_mem
  refine ⟨?_, hlength, ?_, ?_, ?_, ?_⟩
  · rw [← hexpressions]
    rfl
  · rw [← hcount]
    exact Interleaved.isLast_piecesFrom _ _
  · rw [← hexpressions, Interleaved.interleave_pieces, Interleaved.items_ofSegments]
  · intro piece hpiece
    rw [hwritten piece hpiece]
    exact ⟨fun t => cooked_escapeTemplate_iff, lineFeeds_of_not_mem⟩
  · intro X codes hcodes hcomplete behind parts rest
    have htexts : (pieces.map (·.text)).length = codes.length + 1 := by rw [List.length_map, hlength, hcodes]
    have hread := readsTemplate_templateBody htexts hcomplete behind
    rw [List.map_map, List.map_map] at hread
    rw [List.map_congr_left hwritten]
    -- the literal has been read, and it reads as one thing only
    constructor
    · intro h
      exact h.unique hread
    · rintro ⟨rfl, rfl⟩
      exact hread

/-- a dollar sign, a backslash and a backtick at the seams of a template, and a brace behind a seam -/
theorem classTemplate_pieces_seams :
    let x : Node := .plain (.word "x".toList) []
    classTemplate [.text "a$".toList, .expression x, .text "b\\".toList, .expression x, .text "\x7bc\x60".toList] =
        .plain (.template ["a$ ".toList, " b\\\\ ".toList, " \x7bc\\\x60".toList]) [x, x] ∧
      ∀ parts rest, ReadsTemplate .nested "a$ $\x7bx\x7d b\\\\ $\x7bx\x7d \x7bc\\\x60\x60".toList parts rest ↔
        parts = plainParts "a$ ".toList ++ .interpolation "x".toList :: (plainParts " b\\ ".toList ++
          .interpolation "x".toList :: (plainParts " \x7bc\x60".toList ++ [])) ∧ rest = [] := by
  intro x
  obtain ⟨hnode, -, -, -, -, hread⟩ := classTemplate_pieces
    [.text "a$".toList, .expression x, .text "b\\".toList, .expression x, .text "\x7bc\x60".toList]
  have hcomplete : ∀ code ∈ ["x".toList, "x".toList], ExpressionSyntax.nested.Complete code := by
    rintro code hcode
    obtain rfl : code = "x".toList := by simpa using hcode
    exact .plain rfl .nil
  exact ⟨hnode, hread .nested ["x".toList, "x".toList] rfl hcomplete []⟩

end TerseStyle.Rewrite

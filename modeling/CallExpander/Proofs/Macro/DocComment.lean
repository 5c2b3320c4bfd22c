import CallExpander.Macro.Definition
import CallExpander.Proofs.Code.Comment

/-!
# Documentation comments

The comment on a signature is written line by line between `/**` and ` */`. The sign that ends a comment
stands in what is written exactly if it stands in the comment: neither trimming nor the marks in front of
the lines make one.
-/

namespace CallExpander.Signature

open Code Text

/-- A line of a documentation comment, without its line end. -/
def commentText (line : String) : List Char :=
  match trimEnd line.toList with
  | [] => [' ', '*']
  | chars => ' ' :: '*' :: ' ' :: chars

theorem toList_commentLine (line : String) : (commentLine line).toList = commentText line ++ ['\n'] := by
  unfold commentLine commentText
  cases trimEnd line.toList <;> simp

/-- What stands between `/*` and `*/`, the lines indented. -/
def docText (indent : List Char) (comment : String) : List Char :=
  '*' :: '\n' ::
    ((lines comment).flatMap (fun line => indent ++ (commentText line ++ ['\n'])) ++ (indent ++ [' ']))

theorem toList_render (text comment name : String) :
    (render ⟨text, some comment⟩ name).toList =
      '/' :: '*' :: (docText [] comment ++
        '*' :: '/' :: '\n' :: (render ⟨text, none⟩ name).toList) := by
  simp [render, renderComment, docText, String.toList_append, String.toList_join, List.flatMap_map,
    toList_commentLine]

/-! ## The end of a comment in its text -/

theorem endsComment_commentText_iff (line : String) :
    EndsComment (commentText line) ↔ EndsComment (trimEnd line.toList) := by
  unfold commentText
  split
  · next h =>
    rw [h]
    decide
  · have hmark : EndsComment ([' ', '*'] ++ ' ' :: trimEnd line.toList) ↔
        EndsComment [' ', '*'] ∨ EndsComment (trimEnd line.toList) :=
      endsComment_append_cons_iff (by decide)
    exact hmark.trans (or_iff_right (by decide))

theorem endsComment_flatMap_iff {indent : List Char} (hindent : ∀ c ∈ indent, c ∉ ['*', '/'])
    (texts : List String) :
    EndsComment (texts.flatMap fun line => indent ++ (commentText line ++ ['\n'])) ↔
      ∃ line ∈ texts, EndsComment (commentText line) := by
  induction texts with
  | nil => simp [EndsComment]
  | cons line texts ih =>
    rw [List.flatMap_cons, List.append_assoc, List.append_assoc, endsComment_append_left_iff hindent,
      List.singleton_append, endsComment_append_cons_iff (by decide), ih]
    simp only [List.mem_cons, exists_eq_or_imp]

/-- The comment alone decides whether the sign stands in what is written for it. -/
theorem endsComment_docText_iff {indent : List Char} (hindent : ∀ c ∈ indent, c ∉ ['*', '/'])
    (comment : String) : EndsComment (docText indent comment) ↔ EndsComment comment.toList := by
  have hend : ∀ c ∈ indent ++ [' '], c ∉ ['*', '/'] := by
    intro c hc
    rcases List.mem_append.mp hc with hc | hc
    · exact hindent c hc
    · rw [List.mem_singleton.mp hc]
      decide
  have hlines : EndsComment comment.toList ↔ ∃ line ∈ lines comment, EndsComment (commentText line) := by
    simp only [endsComment_commentText_iff]
    exact infix_iff_lines (by simp) (by simp [isBlank]) comment
  calc EndsComment (docText indent comment)
      ↔ EndsComment ['*'] ∨ EndsComment ((lines comment).flatMap
          (fun line => indent ++ (commentText line ++ ['\n'])) ++ (indent ++ [' '])) := by
        rw [docText, ← List.singleton_append, endsComment_append_cons_iff (by decide)]
    _ ↔ EndsComment ((lines comment).flatMap fun line => indent ++ (commentText line ++ ['\n'])) := by
        rw [or_iff_right (by decide), endsComment_append_right_iff hend]
    _ ↔ EndsComment comment.toList := by rw [endsComment_flatMap_iff hindent, hlines]

/-! ## Reading a documentation comment -/

/-- The place where a signature with a comment is written, before other text. -/
def writtenAt (text comment name : String) (rest : List Char) (pos : Nat) : Point :=
  ⟨(render ⟨text, some comment⟩ name).toList ++ rest, pos⟩

/-- The place behind the end that is written for the comment. -/
def commentEnd (text comment name : String) (rest : List Char) (pos : Nat) : Point :=
  (writtenAt text comment name rest pos).move (2 + ((docText [] comment).length + 2))

/-- The comment that is read behind the `/*` of a place. -/
def readComment (p : Point) : Option (String × Point) :=
  blockComment (p.move 2) p.rest.length (p.move 2)

section Reading

variable (text comment name : String) (rest : List Char) (pos : Nat)

theorem rest_inside_writtenAt :
    ((writtenAt text comment name rest pos).move 2).rest = docText [] comment ++
      '*' :: '/' :: '\n' :: ((render ⟨text, none⟩ name).toList ++ rest) := by
  simp [writtenAt, toList_render]

theorem rest_commentEnd :
    (commentEnd text comment name rest pos).rest =
      '\n' :: ((render ⟨text, none⟩ name).toList ++ rest) := by
  rw [commentEnd, ← Point.move_move, ← Point.move_move, Point.rest_move,
    Point.rest_move_of_append (rest_inside_writtenAt text comment name rest pos)]
  rfl

theorem readComment_writtenAt (h : ¬ EndsComment comment.toList) :
    readComment (writtenAt text comment name rest pos) =
      some (String.ofList (docText [] comment), commentEnd text comment name rest pos) := by
  have hinside := rest_inside_writtenAt text comment name rest pos
  have hfirst : ¬ EndsComment (docText [] comment) := by
    rwa [endsComment_docText_iff (by simp)]
  have hfuel : (docText [] comment).length < (writtenAt text comment name rest pos).rest.length := by
    simp [writtenAt, toList_render]
    omega
  rw [readComment, blockComment_of_first hfirst hinside hfuel, Point.textUpTo_of_append hinside,
    Point.move_move, commentEnd]

theorem readComment_writtenAt_of_endsComment (h : EndsComment comment.toList) :
    ∃ inside spilled stop, docText [] comment = inside ++ '*' :: '/' :: spilled ∧
      readComment (writtenAt text comment name rest pos) = some (String.ofList inside, stop) ∧
      stop.rest = spilled ++ '*' :: '/' :: '\n' :: ((render ⟨text, none⟩ name).toList ++ rest) := by
  have hdoc : EndsComment (docText [] comment) := by
    rwa [endsComment_docText_iff (by simp)]
  obtain ⟨inside, spilled, hsplit, hfirst⟩ := hdoc.first
  have hinside := rest_inside_writtenAt text comment name rest pos
  rw [hsplit, List.append_assoc, List.cons_append, List.cons_append] at hinside
  have hfuel : inside.length < (writtenAt text comment name rest pos).rest.length := by
    simp [writtenAt, toList_render, hsplit]
    omega
  refine ⟨inside, spilled, ((writtenAt text comment name rest pos).move 2).move (inside.length + 2),
    hsplit, ?_, ?_⟩
  · rw [readComment, blockComment_of_first hfirst hinside hfuel, Point.textUpTo_of_append hinside]
  · rw [← Point.move_move, Point.rest_move, Point.rest_move_of_append hinside]
    rfl

/-- The comment on a signature is read whole, with the declaration right behind it, exactly if the sign
that ends a comment does not stand in it. -/
theorem readComment_writtenAt_iff :
    readComment (writtenAt text comment name rest pos) =
        some (String.ofList (docText [] comment), commentEnd text comment name rest pos) ↔
      ¬ EndsComment comment.toList := by
  refine ⟨fun hread hends => ?_, readComment_writtenAt text comment name rest pos⟩
  obtain ⟨inside, spilled, stop, hsplit, hstop, -⟩ :=
    readComment_writtenAt_of_endsComment text comment name rest pos hends
  have hsame : inside = docText [] comment := by
    rw [hread, Option.some.injEq, Prod.mk.injEq, String.ofList_inj] at hstop
    exact hstop.1.symm
  rw [hsame] at hsplit
  simpa using congrArg List.length hsplit

end Reading

end CallExpander.Signature

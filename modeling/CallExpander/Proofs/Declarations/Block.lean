import CallExpander.Declarations
import CallExpander.Proofs.Macro.DocComment

/-!
# The lines of a module's block

The lines of what a macro declares are those of its custom types and of its signatures; a comment on a
signature stands on lines of its own, in front of those of the signature. The block of a module has them
one under the other, indented.
-/

namespace CallExpander

open Code Text

/-! ## The lines of what a macro declares -/

/-- The lines of a text that another one follows. -/
def closedLines (text : String) : List String :=
  ((pieces text.toList).map dropReturn).map String.ofList

namespace Signature

def docLines (comment : String) : List String :=
  "/**" :: (lines comment).map (fun line => String.ofList (commentText line)) ++ [" */"]

theorem feed_not_mem_commentText {line : String} (h : '\n' ∉ line.toList) : '\n' ∉ commentText line := by
  obtain ⟨blanks, hline, -⟩ := trimEnd_append_blanks line.toList
  have htrim : '\n' ∉ trimEnd line.toList := fun hmem =>
    h (hline ▸ List.mem_append_left blanks hmem)
  unfold commentText
  split <;> simp [htrim]

theorem dropReturn_commentText (line : String) : dropReturn (commentText line) = commentText line := by
  unfold commentText
  rcases trimEnd_cases line.toList with htrim | ⟨front, c, htrim, hc⟩
  · rw [htrim]
    rfl
  · have hreturn : c ≠ '\r' := by
      rintro rfl
      exact absurd hc (by decide)
    rw [htrim]
    split
    · simp at *
    · rw [← List.cons_append, ← List.cons_append, ← List.cons_append]
      exact dropReturn_append hreturn

theorem pieces_flatMap_commentText {texts : List String} (h : ∀ line ∈ texts, '\n' ∉ line.toList)
    (rest : List Char) :
    pieces (texts.flatMap (fun line => commentText line ++ ['\n']) ++ rest) =
      texts.map commentText ++ pieces rest := by
  induction texts with
  | nil => rfl
  | cons line texts ih =>
    obtain ⟨hline, htexts⟩ := List.forall_mem_cons.mp h
    rw [List.flatMap_cons, List.append_assoc, List.append_assoc, List.singleton_append, pieces_append_feed,
      pieces_of_not_mem (feed_not_mem_commentText hline), ih htexts]
    rfl

/-- The lines of a comment stand in front of those of the signature. -/
theorem closedLines_render (text comment name : String) :
    closedLines (render ⟨text, some comment⟩ name) =
      docLines comment ++ closedLines (render ⟨text, none⟩ name) := by
  have htext : (render ⟨text, some comment⟩ name).toList =
      ['/', '*', '*'] ++ '\n' ::
        ((lines comment).flatMap (fun line => commentText line ++ ['\n']) ++
          ([' ', '*', '/'] ++ '\n' :: (render ⟨text, none⟩ name).toList)) := by
    simp [toList_render, docText]
  have hpieces : pieces (render ⟨text, some comment⟩ name).toList =
      ['/', '*', '*'] :: (lines comment).map commentText ++
        [' ', '*', '/'] :: pieces (render ⟨text, none⟩ name).toList := by
    rw [htext, pieces_append_feed,
      pieces_flatMap_commentText (fun line hline => feed_not_mem_of_mem_lines hline), pieces_append_feed,
      pieces_of_not_mem (by decide), pieces_of_not_mem (by decide)]
    rfl
  have hreturn : (lines comment).map (dropReturn ∘ commentText) = (lines comment).map commentText :=
    List.map_congr_left fun line _ => dropReturn_commentText line
  rw [closedLines, hpieces, closedLines, docLines]
  simp only [List.cons_append, List.map_cons, List.map_append, List.map_map, hreturn, List.append_assoc]
  rfl

end Signature

namespace Definition

def texts (d : Definition) : List String :=
  d.customTypes ++ d.signatures.map fun s => s.render d.name

def withoutComments (d : Definition) : Definition :=
  { d with signatures := d.signatures.map fun s => { s with comment := none } }

theorem signatures_ne_nil_of_finish {d : Definition} {handler : Handler} {m : Macro}
    (h : d.finish handler = .ok m) : d.signatures ≠ [] := by
  intro hnone
  simp [finish, hnone] at h

theorem render_concat (signature : Signature) (name : String) :
    ∃ chars, (signature.render name).toList = chars ++ [';'] := by
  rw [Signature.render, String.toList_append]
  exact ⟨_, rfl⟩

/-- The lines of what a definition declares are those of its texts, if it can be finished. -/
theorem lines_typeText {d : Definition} (h : d.signatures ≠ []) :
    lines d.typeText = d.texts.flatMap closedLines := by
  obtain ⟨front, last, hsignatures⟩ := (List.eq_nil_or_concat d.signatures).resolve_left h
  obtain ⟨chars, hlast⟩ := render_concat last d.name
  obtain ⟨before, htexts⟩ : ∃ before, d.texts = before ++ [last.render d.name] := by
    simp [texts, hsignatures, ← List.append_assoc]
  have hpieces : pieces d.typeText.toList =
      before.flatMap (fun text => pieces text.toList) ++ pieces (chars ++ [';']) := by
    rw [show d.typeText = String.intercalate "\n" d.texts from rfl, String.toList_intercalate,
      show "\n".toList = ['\n'] from rfl, pieces_intercalate (by simp [htexts]), htexts, ← hlast]
    simp [List.flatMap_map]
  rw [lines, hpieces, closeLines_pieces_concat (by decide) (by decide), ← hlast, htexts]
  show _ = List.flatMap
    (fun text : String => ((pieces text.toList).map dropReturn).map String.ofList) _
  simp [List.map_flatMap]

theorem isBlankText_of_mem {chars : List Char} {c : Char} (hmem : c ∈ chars) (hc : isBlank c = false) :
    isBlankText (String.ofList chars) = false := by
  rw [isBlankText, String.toList_ofList, List.all_eq_false]
  exact ⟨c, hmem, by simp [hc]⟩

/-- A definition that can be finished declares something. -/
theorem exists_line_typeText {d : Definition} (h : d.signatures ≠ []) :
    ∃ line ∈ lines d.typeText, isBlankText line = false := by
  obtain ⟨signature, others, hsignatures⟩ := List.exists_cons_of_ne_nil h
  obtain ⟨chars, hrender⟩ := render_concat signature d.name
  obtain ⟨front, line, hpieces⟩ := pieces_concat (by decide : ';' ≠ '\n') chars
  refine ⟨String.ofList (line ++ [';']), ?_, isBlankText_of_mem (c := ';') (by simp) (by decide)⟩
  rw [lines_typeText h]
  refine List.mem_flatMap.mpr ⟨signature.render d.name, by simp [texts, hsignatures], ?_⟩
  simp [closedLines, hrender, hpieces, dropReturn_append]

end Definition

/-! ## The characters of a block -/

def indentedLines (texts : List String) : List Char :=
  texts.flatMap fun line => (declarationLine line).toList ++ ['\n']

@[simp]
theorem indentedLines_append (front back : List String) :
    indentedLines (front ++ back) = indentedLines front ++ indentedLines back :=
  List.flatMap_append

/-- The first line of the block of a module that declares something. -/
def openingLine (module : String) : String := "declare module " ++ quoteName module ++ " \x7b\n"

theorem intercalate_feed {texts : List (List Char)} (h : texts ≠ []) :
    List.intercalate ['\n'] texts ++ ['\n'] = texts.flatMap fun text => text ++ ['\n'] := by
  induction texts with
  | nil => exact absurd rfl h
  | cons text texts ih =>
    cases texts with
    | nil => simp
    | cons next texts =>
      rw [List.intercalate_cons_cons, List.append_assoc, ih (List.cons_ne_nil next texts)]
      simp

theorem declarationLine_of_not_blank {line : String} (h : isBlankText line = false) :
    declarationLine line = "  " ++ line := by
  simp [declarationLine, h]

/-- The block of a module with a line that is not blank. -/
theorem toList_renderDeclaration {module : String} {types : List String} {line : String}
    (hline : line ∈ types.flatMap lines) (hblank : isBlankText line = false) :
    (renderDeclaration module types).toList =
      (openingLine module).toList ++ (indentedLines (types.flatMap lines) ++ ['\x7d', '\n']) := by
  have hbody : (String.intercalate "\n" ((types.flatMap lines).map declarationLine)).toList ++ ['\n'] =
      indentedLines (types.flatMap lines) := by
    rw [String.toList_intercalate, List.map_map, show "\n".toList = ['\n'] from rfl,
      intercalate_feed (by simpa using List.ne_nil_of_mem hline), List.flatMap_map]
    rfl
  have hindent : ' ' ∈ indentedLines (types.flatMap lines) := by
    refine List.mem_flatMap.mpr ⟨line, hline, ?_⟩
    rw [declarationLine_of_not_blank hblank]
    simp
  have hsome : String.intercalate "\n" ((types.flatMap lines).map declarationLine) ≠ "" := by
    intro hnone
    rw [← hbody, hnone] at hindent
    simp at hindent
  have hblock : renderDeclaration module types = openingLine module ++
      String.intercalate "\n" ((types.flatMap lines).map declarationLine) ++ "\n\x7d\n" := if_neg hsome
  rw [hblock, String.toList_append, String.toList_append, ← hbody]
  simp only [List.append_assoc]
  rfl

/-- A documentation comment in a block. -/
theorem indentedLines_docLines (comment : String) :
    indentedLines (Signature.docLines comment) =
      [' ', ' '] ++ ('/' :: '*' :: (Signature.docText [' ', ' '] comment ++ ['*', '/']) ++ ['\n']) := by
  have hopen : declarationLine "/**" = "  /**" := by decide +kernel
  have hclose : declarationLine " */" = "   */" := by decide +kernel
  have hline : ∀ line, declarationLine (String.ofList (Signature.commentText line)) =
      "  " ++ String.ofList (Signature.commentText line) := by
    intro line
    have hstar : '*' ∈ Signature.commentText line := by
      unfold Signature.commentText
      split <;> simp
    exact declarationLine_of_not_blank (Definition.isBlankText_of_mem hstar (by decide))
  simp [indentedLines, Signature.docLines, Signature.docText, List.flatMap_map, hopen, hclose, hline]

end CallExpander

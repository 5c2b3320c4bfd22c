import CallExpander.Text.Blank

/-!
# Lines and what stands in them

A word that holds no blank stands in a text exactly if it stands in one of the lines, also when the
lines are trimmed at their ends.
-/

namespace CallExpander.Text

/-! ## Words beside other characters -/

section Infix

variable {α : Type} {word before behind : List α} {x : α}

theorem infix_cons_of_not_mem (hword : word ≠ []) (hx : x ∉ word) :
    word <:+: x :: behind ↔ word <:+: behind := by
  rw [List.infix_cons_iff, or_iff_right]
  intro hprefix
  rcases List.prefix_cons_iff.mp hprefix with rfl | ⟨tail, rfl, -⟩
  · exact hword rfl
  · exact hx List.mem_cons_self

/-- A word stands on one side of a character that it does not hold. -/
theorem infix_append_cons_iff (hword : word ≠ []) (hx : x ∉ word) :
    word <:+: before ++ x :: behind ↔ word <:+: before ∨ word <:+: behind := by
  rw [List.infix_append_iff, infix_cons_of_not_mem hword hx]
  constructor
  · rintro (hbefore | hbehind | ⟨front, back, rfl, hfront, hback⟩)
    · exact .inl hbefore
    · exact .inr hbehind
    · rcases List.prefix_cons_iff.mp hback with rfl | ⟨tail, rfl, -⟩
      · rw [List.append_nil]
        exact .inl hfront.isInfix
      · exact absurd (List.mem_append_right _ List.mem_cons_self) hx
  · rintro (hbefore | hbehind)
    · exact .inl hbefore
    · exact .inr (.inl hbehind)

theorem infix_append_left_iff (hword : word ≠ []) (h : ∀ x ∈ before, x ∉ word) :
    word <:+: before ++ behind ↔ word <:+: behind := by
  induction before with
  | nil => rw [List.nil_append]
  | cons x before ih =>
    obtain ⟨hx, hbefore⟩ := List.forall_mem_cons.mp h
    rw [List.cons_append, infix_cons_of_not_mem hword hx, ih hbefore]

theorem not_infix_of_forall (hword : word ≠ []) (h : ∀ x ∈ behind, x ∉ word) :
    ¬ word <:+: behind := by
  have hnil : word <:+: behind ++ [] ↔ word <:+: [] := infix_append_left_iff hword h
  rw [List.append_nil, List.infix_nil] at hnil
  exact mt hnil.mp hword

theorem infix_append_right_iff (hword : word ≠ []) (h : ∀ x ∈ behind, x ∉ word) :
    word <:+: before ++ behind ↔ word <:+: before := by
  cases behind with
  | nil => rw [List.append_nil]
  | cons x behind =>
    obtain ⟨hx, hbehind⟩ := List.forall_mem_cons.mp h
    rw [infix_append_cons_iff hword hx, or_iff_left (not_infix_of_forall hword hbehind)]

end Infix

/-! ## Pieces -/

theorem pieces_ne_nil (cs : List Char) : pieces cs ≠ [] := by
  cases cs with
  | nil => simp [pieces]
  | cons c cs =>
    simp only [pieces]
    split
    · simp
    · split <;> simp

theorem pieces_of_not_mem {cs : List Char} (h : '\n' ∉ cs) : pieces cs = [cs] := by
  induction cs with
  | nil => rfl
  | cons c cs ih =>
    obtain ⟨hc, hcs⟩ := not_or.mp (mt List.mem_cons.mpr h)
    simp [pieces, ih hcs, Ne.symm hc]

theorem pieces_append_feed (before behind : List Char) :
    pieces (before ++ '\n' :: behind) = pieces before ++ pieces behind := by
  induction before with
  | nil => simp [pieces]
  | cons c before ih =>
    rw [List.cons_append, pieces, pieces, ih]
    split
    · rfl
    · cases hpieces : pieces before with
      | nil => exact absurd hpieces (pieces_ne_nil before)
      | cons line more => rfl

/-- A text is a single line, or its first line and what follows the line feed. -/
theorem feed_cases (cs : List Char) :
    '\n' ∉ cs ∨ ∃ line more, cs = line ++ '\n' :: more ∧ '\n' ∉ line := by
  by_cases h : '\n' ∈ cs
  · exact .inr (List.eq_append_cons_of_mem h)
  · exact .inl h

theorem feed_not_mem_of_mem_pieces {cs line : List Char} (h : line ∈ pieces cs) : '\n' ∉ line := by
  rcases feed_cases cs with hcs | ⟨first, more, rfl, hfirst⟩
  · rw [pieces_of_not_mem hcs] at h
    rwa [List.mem_singleton.mp h]
  · rw [pieces_append_feed, pieces_of_not_mem hfirst, List.singleton_append] at h
    rcases List.mem_cons.mp h with rfl | hmore
    · exact hfirst
    · exact feed_not_mem_of_mem_pieces hmore
termination_by cs.length
decreasing_by simp_all; omega

/-- The pieces of texts that line feeds are put between. -/
theorem pieces_intercalate {texts : List (List Char)} (h : texts ≠ []) :
    pieces (List.intercalate ['\n'] texts) = texts.flatMap pieces := by
  induction texts with
  | nil => exact absurd rfl h
  | cons text texts ih =>
    cases texts with
    | nil => simp
    | cons next texts =>
      rw [List.intercalate_cons_cons, List.append_assoc, List.singleton_append, pieces_append_feed,
        ih (List.cons_ne_nil next texts)]
      rfl

/-- A text that ends with a character other than a line feed has a last piece that ends with it. -/
theorem pieces_concat {c : Char} (hc : c ≠ '\n') (cs : List Char) :
    ∃ front line, pieces (cs ++ [c]) = front ++ [line ++ [c]] := by
  rcases feed_cases cs with hcs | ⟨line, more, rfl, -⟩
  · refine ⟨[], cs, pieces_of_not_mem ?_⟩
    simp [hcs, hc.symm]
  · obtain ⟨front, last, hmore⟩ := pieces_concat hc more
    refine ⟨pieces line ++ front, last, ?_⟩
    rw [List.append_assoc, List.cons_append, pieces_append_feed, hmore, List.append_assoc]
termination_by cs.length
decreasing_by simp_all; omega

/-! ## Lines without their ends -/

theorem dropReturn_cases (line : List Char) :
    line = dropReturn line ∨ line = dropReturn line ++ ['\r'] := by
  unfold dropReturn
  split
  · next h =>
    obtain ⟨front, rfl⟩ := List.getLast?_eq_some_iff.mp h
    rw [List.dropLast_concat]
    exact .inr rfl
  · exact .inl rfl

theorem dropReturn_append {line : List Char} {c : Char} (hc : c ≠ '\r') :
    dropReturn (line ++ [c]) = line ++ [c] := by
  simp [dropReturn, hc]

theorem closeLines_append {front back : List (List Char)} (hback : back ≠ []) :
    closeLines (front ++ back) = front.map dropReturn ++ closeLines back := by
  induction front with
  | nil => rfl
  | cons line front ih =>
    obtain ⟨next, more, hmore⟩ := List.exists_cons_of_ne_nil (List.append_ne_nil_of_right_ne_nil front hback)
    rw [List.cons_append, hmore, closeLines, ← hmore, ih]
    · rfl
    · simp

/-- The lines of a text that does not end with a line end. -/
theorem closeLines_pieces_concat {c : Char} (hfeed : c ≠ '\n') (hreturn : c ≠ '\r')
    (front : List (List Char)) (cs : List Char) :
    closeLines (front ++ pieces (cs ++ [c])) = (front ++ pieces (cs ++ [c])).map dropReturn := by
  obtain ⟨init, line, hpieces⟩ := pieces_concat hfeed cs
  rw [closeLines_append (pieces_ne_nil _), hpieces, closeLines_append (List.cons_ne_nil _ _),
    List.map_append, List.map_append]
  simp [closeLines, dropReturn_append hreturn]

theorem mem_closeLines {cs : List (List Char)} {line : List Char} (h : line ∈ closeLines cs) :
    ∃ piece ∈ cs, line = piece ∨ line = dropReturn piece := by
  fun_induction closeLines cs with
  | case1 => cases h
  | case2 last hlast => cases h
  | case3 last hlast => exact ⟨last, List.mem_singleton_self last, .inl (List.mem_singleton.mp h)⟩
  | case4 first more _ ih =>
    rcases List.mem_cons.mp h with rfl | hmore
    · exact ⟨first, List.mem_cons_self, .inr rfl⟩
    · obtain ⟨piece, hpiece, hline⟩ := ih hmore
      exact ⟨piece, List.mem_cons_of_mem _ hpiece, hline⟩

theorem feed_not_mem_of_mem_lines {text line : String} (h : line ∈ lines text) : '\n' ∉ line.toList := by
  obtain ⟨chars, hchars, rfl⟩ := List.mem_map.mp h
  obtain ⟨piece, hpiece, hline⟩ := mem_closeLines hchars
  have hfeed := feed_not_mem_of_mem_pieces hpiece
  rw [String.toList_ofList]
  rcases hline with rfl | rfl
  · exact hfeed
  · rcases dropReturn_cases piece with hsame | hreturn
    · rwa [← hsame]
    · intro hmem
      exact hfeed (hreturn ▸ List.mem_append_left _ hmem)

/-! ## Trimming -/

/-- What is trimmed off is blank. -/
theorem trimEnd_append_blanks (cs : List Char) :
    ∃ blanks, cs = trimEnd cs ++ blanks ∧ ∀ c ∈ blanks, isBlank c = true := by
  refine ⟨(cs.reverse.takeWhile isBlank).reverse, ?_, ?_⟩
  · rw [trimEnd, dropEndWhile, ← List.reverse_append, List.takeWhile_append_dropWhile, List.reverse_reverse]
  · intro c hc
    exact List.all_eq_true.mp List.all_takeWhile c (List.mem_reverse.mp hc)

/-- What is left is nothing, or it ends with a character that is no blank. -/
theorem trimEnd_cases (cs : List Char) :
    trimEnd cs = [] ∨ ∃ front c, trimEnd cs = front ++ [c] ∧ isBlank c = false := by
  unfold trimEnd dropEndWhile
  cases hrest : cs.reverse.dropWhile isBlank with
  | nil => exact .inl rfl
  | cons c rest =>
    have hc := List.head_dropWhile_not isBlank (w := hrest ▸ List.cons_ne_nil c rest)
    simp only [hrest, List.head_cons] at hc
    exact .inr ⟨rest.reverse, c, by rw [List.reverse_cons], hc⟩

/-! ## Words in lines -/

section Words

variable {word : List Char} (hword : word ≠ [])
include hword

theorem infix_dropReturn_iff (hreturn : '\r' ∉ word) (line : List Char) :
    word <:+: dropReturn line ↔ word <:+: line := by
  rcases dropReturn_cases line with hsame | hline
  · rw [← hsame]
  · have hsame : word <:+: dropReturn line ++ ['\r'] ↔ word <:+: dropReturn line :=
      infix_append_right_iff hword (by simpa using hreturn)
    rw [← hline] at hsame
    exact hsame.symm

theorem infix_iff_pieces (hfeed : '\n' ∉ word) (cs : List Char) :
    word <:+: cs ↔ ∃ line ∈ pieces cs, word <:+: line := by
  rcases feed_cases cs with hcs | ⟨line, more, rfl, hline⟩
  · simp [pieces_of_not_mem hcs]
  · rw [infix_append_cons_iff hword hfeed, infix_iff_pieces hfeed more, pieces_append_feed,
      pieces_of_not_mem hline]
    simp
termination_by cs.length
decreasing_by simp_all; omega

theorem infix_closeLines_iff (hreturn : '\r' ∉ word) (cs : List (List Char)) :
    (∃ line ∈ closeLines cs, word <:+: line) ↔ ∃ line ∈ cs, word <:+: line := by
  fun_induction closeLines cs with
  | case1 => rfl
  | case2 last hlast =>
    rw [List.isEmpty_iff.mp hlast]
    simpa using hword
  | case3 last hlast => rfl
  | case4 line more _ ih =>
    simp only [List.mem_cons, exists_eq_or_imp, ih, infix_dropReturn_iff hword hreturn]

theorem infix_trimEnd_iff (hblank : ∀ c ∈ word, isBlank c = false) (cs : List Char) :
    word <:+: trimEnd cs ↔ word <:+: cs := by
  obtain ⟨blanks, hcs, hblanks⟩ := trimEnd_append_blanks cs
  have hsame : word <:+: trimEnd cs ++ blanks ↔ word <:+: trimEnd cs :=
    infix_append_right_iff hword fun c hc hmem =>
      Bool.false_ne_true ((hblank c hmem).symm.trans (hblanks c hc))
  rw [← hcs] at hsame
  exact hsame.symm

/-- A word without blanks stands in a text exactly if it stands in a line that is trimmed at its end. -/
theorem infix_iff_lines (hblank : ∀ c ∈ word, isBlank c = false) (text : String) :
    word <:+: text.toList ↔ ∃ line ∈ lines text, word <:+: trimEnd line.toList := by
  have hfeed : '\n' ∉ word := fun h => absurd (hblank _ h) (by decide)
  have hreturn : '\r' ∉ word := fun h => absurd (hblank _ h) (by decide)
  rw [infix_iff_pieces hword hfeed, ← infix_closeLines_iff hword hreturn]
  constructor
  · rintro ⟨line, hline, h⟩
    refine ⟨String.ofList line, List.mem_map_of_mem hline, ?_⟩
    rwa [String.toList_ofList, infix_trimEnd_iff hword hblank]
  · rintro ⟨_, hmem, h⟩
    obtain ⟨line, hline, rfl⟩ := List.mem_map.mp hmem
    rw [String.toList_ofList, infix_trimEnd_iff hword hblank] at h
    exact ⟨line, hline, h⟩

end Words

end CallExpander.Text

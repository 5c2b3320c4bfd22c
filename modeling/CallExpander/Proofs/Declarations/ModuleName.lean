import CallExpander.Code.Lexer
import CallExpander.Declarations
import CallExpander.Proofs.Code.Point

/-!
# Module names in declarations

The name of a module stands in its block as a string literal. Read back, the literal is the name, unless
a line ends in the name: line ends are written as they are, so the literal breaks off at the first one.
-/

namespace CallExpander

open Code

/-- The line ends that break off a string literal. -/
def BreaksOff (c : Char) : Prop := c = '\n' ∨ c = '\r'

instance (c : Char) : Decidable (BreaksOff c) := inferInstanceAs (Decidable (_ ∨ _))

/-! ## Escapes -/

theorem escapeName_append (chars rest : List Char) :
    escapeName (chars ++ rest) = escapeName chars ++ escapeName rest := by
  simp [escapeName, replaceChar]

/-- Each character is escaped on its own, though the quotes are looked for in what the backslashes
have become. -/
theorem escapeName_single (c : Char) :
    escapeName [c] = if c = '\\' ∨ c = '\'' then ['\\', c] else [c] := by
  by_cases hbackslash : c = '\\'
  · subst hbackslash
    rfl
  · by_cases hquote : c = '\''
    · subst hquote
      rfl
    · simp [escapeName, replaceChar, hbackslash, hquote]

theorem length_le_escapeName (chars : List Char) : chars.length ≤ (escapeName chars).length := by
  induction chars with
  | nil => simp
  | cons c chars ih =>
    have hsingle : 1 ≤ (escapeName [c]).length := by
      rw [escapeName_single]
      split <;> simp
    rw [← List.singleton_append, escapeName_append, List.length_append, List.length_append]
    exact Nat.add_le_add hsingle ih

/-! ## Reading -/

section Reading

variable {start p : Point} {fuel : Nat} {value rest : List Char} {faults : List Fault}

/-- A backslash in front of a quote or a backslash stands for nothing itself. -/
theorem readEscape_of_escaped {c : Char} (hc : c = '\\' ∨ c = '\'') (hp : p.rest = '\\' :: c :: rest) :
    readEscape p = (.text [c], p.move 2) := by
  rcases hc with rfl | rfl <;> simp [readEscape, hp, isDigitOf, digitValue?]

theorem stringRest_of_escaped {c : Char} (hbreak : ¬ BreaksOff c)
    (hp : p.rest = escapeName [c] ++ rest) :
    stringRest start '\'' (fuel + 1) value faults p =
      stringRest start '\'' fuel (c :: value) faults (p.move (escapeName [c]).length) := by
  rw [escapeName_single] at hp ⊢
  by_cases hc : c = '\\' ∨ c = '\''
  · rw [if_pos hc] at hp ⊢
    have hescape := readEscape_of_escaped hc hp
    simp [stringRest, hp, hescape]
  · rw [if_neg hc] at hp ⊢
    obtain ⟨hbackslash, hquote⟩ := not_or.mp hc
    have hline : ¬ (c = '\n' ∨ c = '\r') := hbreak
    simp [stringRest, hp, hbackslash, hquote, hline]

theorem stringRest_of_escapeName {chars : List Char} (hbreak : ∀ c ∈ chars, ¬ BreaksOff c)
    (hp : p.rest = escapeName chars ++ rest) :
    stringRest start '\'' (chars.length + fuel) value faults p =
      stringRest start '\'' fuel (chars.reverse ++ value) faults (p.move (escapeName chars).length) := by
  induction chars generalizing p value with
  | nil => simp [escapeName, replaceChar]
  | cons c chars ih =>
    obtain ⟨hc, hchars⟩ := List.forall_mem_cons.mp hbreak
    rw [← List.singleton_append, escapeName_append] at hp ⊢
    rw [List.append_assoc] at hp
    have hfuel : ([c] ++ chars).length + fuel = chars.length + fuel + 1 := by
      rw [List.length_append, List.length_singleton]
      omega
    rw [hfuel, stringRest_of_escaped hc hp, ih hchars (Point.rest_move_of_append hp)]
    simp

theorem stringRest_at_quote (hp : p.rest = '\'' :: rest) :
    stringRest start '\'' (fuel + 1) value faults p =
      (.str (String.ofList value.reverse) (start.textUpTo (p.move 1)), p.move 1, faults) := by
  simp [stringRest, hp]

theorem stringRest_at_break {c : Char} (hbreak : BreaksOff c) (hp : p.rest = c :: rest) :
    stringRest start '\'' (fuel + 1) value faults p =
      (.str (String.ofList value.reverse) (start.textUpTo p), p,
        faults ++ [⟨.openString, start.spanTo p⟩]) := by
  have hquote : c ≠ '\'' := by
    rintro rfl
    revert hbreak
    decide
  have hline : c = '\n' ∨ c = '\r' := hbreak
  simp [stringRest, hp, hquote, hline]

theorem readToken_at_quote (reader : Reader) (hp : p.rest = '\'' :: rest) :
    readToken reader p = stringRest p '\'' (rest.length + 1) [] [] (p.move 1) := by
  have hname : Text.isNameStart '\'' = false := by decide
  simp [readToken, hp, hname]

/-- Reading goes through what is written for characters that end no line, up to what follows. -/
theorem readToken_inside (reader : Reader) {chars : List Char} {d : Char}
    (hbreak : ∀ c ∈ chars, ¬ BreaksOff c) (hp : p.rest = '\'' :: (escapeName chars ++ d :: rest)) :
    (p.move (1 + (escapeName chars).length)).rest = d :: rest ∧
      ∃ fuel, readToken reader p =
        stringRest p '\'' (fuel + 1) chars.reverse [] (p.move (1 + (escapeName chars).length)) := by
  have hinside := Point.rest_move_of_cons hp
  refine ⟨by rw [← Point.move_move, Point.rest_move_of_append hinside], ?_⟩
  have hlength := length_le_escapeName chars
  have hfuel : (escapeName chars ++ d :: rest).length + 1 =
      chars.length + ((escapeName chars).length + rest.length + 1 - chars.length + 1) := by
    rw [List.length_append, List.length_cons]
    omega
  refine ⟨(escapeName chars).length + rest.length + 1 - chars.length, ?_⟩
  rw [readToken_at_quote reader hp, hfuel, stringRest_of_escapeName hbreak hinside, Point.move_move,
    List.append_nil]

/-- A literal that is closed: its value is the name, and nothing is wrong with it. -/
theorem readToken_quoteName (reader : Reader) {name : String} (hbreak : ∀ c ∈ name.toList, ¬ BreaksOff c)
    (hp : p.rest = (quoteName name).toList ++ rest) :
    readToken reader p = (.str name (quoteName name), p.move (quoteName name).length, []) := by
  have hquoted : (quoteName name).toList = '\'' :: (escapeName name.toList ++ ['\'']) := by
    simp [quoteName]
  have hlength : (quoteName name).length = 1 + (escapeName name.toList).length + 1 := by
    rw [← String.length_toList, hquoted, List.length_cons, List.length_append, List.length_singleton]
    omega
  have hraw : p.textUpTo (p.move (quoteName name).length) = quoteName name := by
    rw [← String.length_toList, Point.textUpTo_of_append hp, String.ofList_toList]
  have hopen : p.rest = '\'' :: (escapeName name.toList ++ '\'' :: rest) := by
    simp [hp, hquoted]
  obtain ⟨hclose, fuel, hread⟩ := readToken_inside reader hbreak hopen
  rw [hread, stringRest_at_quote hclose, Point.move_move, ← hlength, hraw, List.reverse_reverse,
    String.ofList_toList]

/-- A literal that is broken off: its value is what stands before the first line end. -/
theorem readToken_of_breaksOff (reader : Reader) {before : List Char} {c : Char}
    (hbefore : ∀ d ∈ before, ¬ BreaksOff d) (hc : BreaksOff c)
    (hp : p.rest = '\'' :: (escapeName before ++ c :: rest)) :
    ∃ raw stop, readToken reader p =
        (.str (String.ofList before) raw, stop, [⟨.openString, p.spanTo stop⟩]) ∧
      stop.rest = c :: rest := by
  obtain ⟨hstop, fuel, hread⟩ := readToken_inside reader hbefore hp
  rw [hread, stringRest_at_break hc hstop, List.reverse_reverse, List.nil_append]
  exact ⟨_, _, rfl, hstop⟩

end Reading

/-! ## The name in a block -/

/-- The place of the name in the block of a module that starts at a position. -/
def namePlace (module : String) (types : List String) (pos : Nat) : Point :=
  (Point.mk (renderDeclaration module types).toList pos).move "declare module ".length

theorem rest_namePlace (module : String) (types : List String) (pos : Nat) :
    ∃ rest, (namePlace module types pos).rest = (quoteName module).toList ++ rest := by
  obtain ⟨tail, htail⟩ : ∃ tail, renderDeclaration module types =
      "declare module " ++ (quoteName module ++ tail) := by
    simp only [renderDeclaration]
    split
    · exact ⟨_, String.append_assoc ..⟩
    · exact ⟨" \x7b\n" ++ _ ++ "\n\x7d\n", by simp only [String.append_assoc]; rfl⟩
  refine ⟨tail.toList, ?_⟩
  rw [namePlace, htail, ← String.length_toList]
  exact Point.rest_move_of_append (by simp)

theorem escapeName_of_breaksOff {c : Char} (hc : BreaksOff c) : escapeName [c] = [c] := by
  rcases hc with rfl | rfl <;> rfl

/-- Where a line ends in the name, its literal breaks off. -/
theorem readToken_namePlace_of_breaksOff {module : String} {before after : List Char} {c : Char}
    (types : List String) (reader : Reader) (pos : Nat) (hmodule : module.toList = before ++ c :: after)
    (hbefore : ∀ d ∈ before, ¬ BreaksOff d) (hc : BreaksOff c) :
    ∃ raw stop, readToken reader (namePlace module types pos) =
        (.str (String.ofList before) raw, stop,
          [⟨.openString, (namePlace module types pos).spanTo stop⟩]) ∧
      stop.rest.head? = some c := by
  obtain ⟨rest, hrest⟩ := rest_namePlace module types pos
  have hescaped : escapeName module.toList = escapeName before ++ c :: escapeName after := by
    rw [hmodule, ← List.singleton_append, escapeName_append, escapeName_append,
      escapeName_of_breaksOff hc, List.singleton_append]
  have hopen : (namePlace module types pos).rest =
      '\'' :: (escapeName before ++ c :: (escapeName after ++ '\'' :: rest)) := by
    simp [hrest, quoteName, hescaped]
  obtain ⟨raw, stop, hread, hstop⟩ := readToken_of_breaksOff reader hbefore hc hopen
  exact ⟨raw, stop, hread, by rw [hstop, List.head?_cons]⟩

/-- The name in the block of a module, read as a string literal, is closed and has the module's name as
its value exactly if no line ends in the name. Otherwise the literal breaks off at the first line end, and
its value is what the name has before it. -/
theorem module_name_reads_back_iff (module : String) (types : List String) (reader : Reader)
    (pos : Nat) :
    (readToken reader (namePlace module types pos) =
        (.str module (quoteName module), (namePlace module types pos).move (quoteName module).length, []) ↔
      ∀ c ∈ module.toList, ¬ BreaksOff c) ∧
    ∀ before c after, module.toList = before ++ c :: after → (∀ d ∈ before, ¬ BreaksOff d) →
      BreaksOff c →
        ∃ raw stop, readToken reader (namePlace module types pos) =
            (.str (String.ofList before) raw, stop,
              [⟨.openString, (namePlace module types pos).spanTo stop⟩]) ∧
          stop.rest.head? = some c := by
  obtain ⟨rest, hrest⟩ := rest_namePlace module types pos
  refine ⟨⟨fun hread => ?_, fun hbreak => readToken_quoteName reader hbreak hrest⟩,
    fun before c after hmodule hbefore hc =>
      readToken_namePlace_of_breaksOff types reader pos hmodule hbefore hc⟩
  -- a name in which a line ends has a first line end, and there the literal is noted to be open
  cases hfind : module.toList.find? fun c => decide (BreaksOff c) with
  | none =>
    intro c hc
    simpa using List.find?_eq_none.mp hfind c hc
  | some c =>
    obtain ⟨hc, before, after, hmodule, hbefore⟩ := List.find?_eq_some_iff_append.mp hfind
    obtain ⟨raw, stop, hopen, -⟩ := readToken_namePlace_of_breaksOff types reader pos hmodule
      (by simpa using hbefore) (by simpa using hc)
    rw [hopen] at hread
    simp at hread

def declarationReader : Reader where
  hasTypes := true
  inType := false
  reserved := isKeyword

/-- A name of quotes and backslashes, and one that a line ends in behind a quote. -/
theorem names_read_back :
    (∀ c ∈ "\\'\\\\''\\".toList, ¬ BreaksOff c) ∧
    readToken declarationReader (namePlace "\\'\\\\''\\" ["type A = 1;"] 0) =
      (.str "\\'\\\\''\\" "'\\\\\\'\\\\\\\\\\'\\'\\\\'",
        (namePlace "\\'\\\\''\\" ["type A = 1;"] 0).move 16, []) ∧
    "it's\rme".toList = ['i', 't', '\'', 's'] ++ '\r' :: ['m', 'e'] ∧
    (∀ d ∈ ['i', 't', '\'', 's'], ¬ BreaksOff d) ∧ BreaksOff '\r' ∧
    ∃ raw stop, readToken declarationReader (namePlace "it's\rme" [] 0) =
        (.str "it's" raw, stop, [⟨.openString, (namePlace "it's\rme" [] 0).spanTo stop⟩]) ∧
      stop.rest.head? = some '\r' := by
  have hwhole : ∀ c ∈ "\\'\\\\''\\".toList, ¬ BreaksOff c := by
    simp [BreaksOff]
  have hbefore : ∀ d ∈ ['i', 't', '\'', 's'], ¬ BreaksOff d := by
    simp [BreaksOff]
  refine ⟨hwhole, ?_, rfl, hbefore, by decide, ?_⟩
  · exact (module_name_reads_back_iff _ _ declarationReader 0).1.mpr hwhole
  · exact (module_name_reads_back_iff "it's\rme" [] declarationReader 0).2 ['i', 't', '\'', 's'] '\r'
      ['m', 'e'] rfl hbefore (by decide)

/-- A name with a line feed in it can be registered, and its literal breaks off. -/
theorem name_with_line_feed_breaks_off :
    ∃ registry, ({} : Registry).registerSource "a\nb" "" = .ok registry ∧
      registry.declarations =
        "// Generated by vmacro. Do not edit.\n\ndeclare module 'a\nb' \x7b\x7d\n" ∧
      (readToken declarationReader (namePlace "a\nb" [] 0)).1 = .str "a" "'a" ∧
      (readToken declarationReader (namePlace "a\nb" [] 0)).2.2 = [⟨.openString, ⟨15, 17⟩⟩] :=
  ⟨_, rfl, by decide +kernel, by decide +kernel, by decide +kernel⟩

end CallExpander

import CallExpander.Proofs.Declarations.Block

/-!
# Comments in declarations

Whoever reads the block of a module passes over the comments. The comments on signatures are closed by
the sign that is written for it, unless they hold that sign themselves; so a reader that is between two
tokens wherever a signature starts reads the block as if there were no comments.
-/

namespace CallExpander

open Code Text

/-! ## Readers that pass over comments -/

/-- A way to read program text, character by character, that passes over blanks and comments: where a line
starts between two tokens, neither of them changes what has been read. -/
structure Scanner (σ : Type) where
  next : σ → Char → σ
  /-- The states between two tokens at the start of a line. -/
  AtLine : σ → Prop
  blank : ∀ s c, AtLine s → c = ' ' ∨ c = '\n' → next s c = s
  comment : ∀ s inside, AtLine s → ¬ EndsComment inside →
    ('/' :: '*' :: (inside ++ ['*', '/'])).foldl next s = s

namespace Scanner

variable {σ : Type} (S : Scanner σ)

def scan (s : σ) (chars : List Char) : σ := chars.foldl S.next s

@[simp]
theorem scan_nil (s : σ) : S.scan s [] = s := rfl

@[simp]
theorem scan_cons (s : σ) (c : Char) (chars : List Char) :
    S.scan s (c :: chars) = S.scan (S.next s c) chars := rfl

@[simp]
theorem scan_append (s : σ) (front back : List Char) :
    S.scan s (front ++ back) = S.scan (S.scan s front) back :=
  List.foldl_append

/-- A text closes what it opens: behind its lines in a block comes the start of a line between two
tokens, as before them. -/
def Closes (text : String) : Prop :=
  ∀ s, S.AtLine s → S.AtLine (S.scan s (indentedLines (closedLines text)))

/-- Two runs of lines are read alike, and close what they open. -/
def Alike (front back : List String) : Prop :=
  ∀ s, S.AtLine s →
    S.scan s (indentedLines front) = S.scan s (indentedLines back) ∧
      S.AtLine (S.scan s (indentedLines back))

variable {S}

theorem Closes.alike {text : String} (h : S.Closes text) :
    S.Alike (closedLines text) (closedLines text) :=
  fun s hs => ⟨rfl, h s hs⟩

theorem Alike.append {front back front' back' : List String} (h : S.Alike front back)
    (h' : S.Alike front' back') : S.Alike (front ++ front') (back ++ back') := by
  intro s hs
  obtain ⟨hsame, hline⟩ := h s hs
  obtain ⟨hsame', hline'⟩ := h' _ hline
  simp only [indentedLines_append, scan_append, hsame]
  exact ⟨hsame', hline'⟩

theorem Alike.flatMap {α : Type} {f g : α → List String} {xs : List α}
    (h : ∀ x ∈ xs, S.Alike (f x) (g x)) : S.Alike (xs.flatMap f) (xs.flatMap g) := by
  induction xs with
  | nil => exact fun s hs => ⟨rfl, hs⟩
  | cons x xs ih =>
    obtain ⟨hx, hxs⟩ := List.forall_mem_cons.mp h
    exact hx.append (ih hxs)

/-! ## Comments are passed over -/

/-- A comment that does not hold the sign for its end is one comment. -/
theorem scan_docLines {s : σ} (hs : S.AtLine s) {comment : String} (h : ¬ EndsComment comment.toList) :
    S.scan s (indentedLines (Signature.docLines comment)) = s := by
  have hinside : ¬ EndsComment (Signature.docText [' ', ' '] comment) := by
    rwa [Signature.endsComment_docText_iff (by simp)]
  have hcomment : S.scan s ('/' :: '*' :: (Signature.docText [' ', ' '] comment ++ ['*', '/'])) = s :=
    S.comment s _ hs hinside
  rw [indentedLines_docLines, scan_append, scan_append]
  simp only [scan_cons, scan_nil, S.blank s ' ' hs (.inl rfl)]
  rw [← scan_cons, ← scan_cons, hcomment, S.blank s '\n' hs (.inr rfl)]

theorem alike_render {signature : Signature} {name : String}
    (hcomment : ∀ comment, signature.comment = some comment → ¬ EndsComment comment.toList)
    (hcloses : S.Closes (Signature.render { signature with comment := none } name)) :
    S.Alike (closedLines (signature.render name))
      (closedLines (Signature.render { signature with comment := none } name)) := by
  obtain ⟨text, _ | comment⟩ := signature
  · exact hcloses.alike
  · intro s hs
    rw [Signature.closedLines_render, indentedLines_append, scan_append,
      scan_docLines hs (hcomment comment rfl)]
    exact ⟨rfl, hcloses s hs⟩

/-- What a definition declares is read alike without its comments. -/
theorem alike_typeText {d : Definition} (hsignatures : d.signatures ≠ [])
    (hcomments : ∀ signature ∈ d.signatures, ∀ comment, signature.comment = some comment →
      ¬ EndsComment comment.toList)
    (hcloses : ∀ text ∈ d.withoutComments.texts, S.Closes text) :
    S.Alike (lines d.typeText) (lines d.withoutComments.typeText) := by
  have hbare : d.withoutComments.signatures ≠ [] := by
    simpa [Definition.withoutComments] using hsignatures
  rw [Definition.lines_typeText hsignatures, Definition.lines_typeText hbare]
  simp only [Definition.texts, Definition.withoutComments, List.flatMap_append, List.map_map,
    List.flatMap_map, List.forall_mem_append, List.forall_mem_map] at hcloses ⊢
  obtain ⟨htypes, hrendered⟩ := hcloses
  exact Alike.append (Alike.flatMap fun text htext => (htypes text htext).alike)
    (Alike.flatMap fun signature hsignature =>
      alike_render (hcomments signature hsignature) (hrendered signature hsignature))

/-- A block is read alike with texts in it that are read alike. -/
theorem scan_renderDeclaration {s : σ} {module : String}
    (hs : S.AtLine (S.scan s (openingLine module).toList)) {front back more : List String}
    (halike : S.Alike (front.flatMap lines) (back.flatMap lines))
    (hfront : ∃ line ∈ front.flatMap lines, isBlankText line = false)
    (hback : ∃ line ∈ back.flatMap lines, isBlankText line = false) :
    S.scan s (renderDeclaration module (front ++ more)).toList =
      S.scan s (renderDeclaration module (back ++ more)).toList := by
  obtain ⟨line, hline, hblank⟩ := hfront
  obtain ⟨line', hline', hblank'⟩ := hback
  have hline : line ∈ (front ++ more).flatMap lines := by
    rw [List.flatMap_append]
    exact List.mem_append_left _ hline
  have hline' : line' ∈ (back ++ more).flatMap lines := by
    rw [List.flatMap_append]
    exact List.mem_append_left _ hline'
  rw [toList_renderDeclaration hline hblank, toList_renderDeclaration hline' hblank']
  simp only [scan_append, List.flatMap_append, indentedLines_append, (halike _ hs).1]

/-- The block of a module is read alike without the comments on the signatures of its macros. -/
theorem scan_withoutComments {s : σ} {module : String}
    (hs : S.AtLine (S.scan s (openingLine module).toList)) {definitions : List Definition}
    (hfinish : ∀ d ∈ definitions, ∃ handler m, d.finish handler = .ok m)
    (hcomments : ∀ d ∈ definitions, ∀ signature ∈ d.signatures, ∀ comment,
      signature.comment = some comment → ¬ EndsComment comment.toList)
    (hcloses : ∀ d ∈ definitions, ∀ text ∈ d.withoutComments.texts, S.Closes text) (more : List String) :
    S.scan s (renderDeclaration module (definitions.map Definition.typeText ++ more)).toList =
      S.scan s (renderDeclaration module
        (definitions.map (fun d => d.withoutComments.typeText) ++ more)).toList := by
  have hsignatures : ∀ d ∈ definitions, d.signatures ≠ [] := by
    intro d hd
    obtain ⟨handler, m, hm⟩ := hfinish d hd
    exact Definition.signatures_ne_nil_of_finish hm
  have halike : S.Alike ((definitions.map Definition.typeText).flatMap lines)
      ((definitions.map fun d => d.withoutComments.typeText).flatMap lines) := by
    rw [List.flatMap_map, List.flatMap_map]
    exact Alike.flatMap fun d hd => alike_typeText (hsignatures d hd) (hcomments d hd) (hcloses d hd)
  cases definitions with
  | nil => rfl
  | cons first others =>
    have hfirst := hsignatures first List.mem_cons_self
    have hbare : first.withoutComments.signatures ≠ [] := by
      simpa [Definition.withoutComments] using hfirst
    obtain ⟨line, hline, hblank⟩ := Definition.exists_line_typeText hfirst
    obtain ⟨line', hline', hblank'⟩ := Definition.exists_line_typeText hbare
    exact scan_renderDeclaration hs halike ⟨line, List.mem_append_left _ hline, hblank⟩
      ⟨line', List.mem_append_left _ hline', hblank'⟩

end Scanner

/-! ## A reader of declarations -/

/-- What a character of a declaration belongs to. A slash is undecided until the next character: it opens
a comment or stands for itself, behind a gap or not. -/
inductive Stretch where
  | code
  | gap
  | slash (inGap : Bool)
  | line
  | block
  | star
  | quoted (quote : Char)
  | escaped (quote : Char)
  deriving DecidableEq

namespace Stretch

/-- The stretch behind a character of code that is no slash. -/
def behind (c : Char) : Stretch :=
  if isBlank c then .gap
  else if c = '\'' ∨ c = '"' ∨ c = '`' then .quoted c
  else .code

def next : Stretch → Char → Stretch
  | .code, c => if c = '/' then .slash false else behind c
  | .gap, c => if c = '/' then .slash true else behind c
  | .slash _, c => if c = '*' then .block else if c = '/' then .line else behind c
  | .line, c => if isLineEnd c then .gap else .line
  | .block, c => if c = '*' then .star else .block
  | .star, c => if c = '/' then .gap else if c = '*' then .star else .block
  | .quoted quote, c =>
    if c = '\\' then .escaped quote
    else if c = quote then .code
    else if isLineEnd c ∧ quote ≠ '`' then .gap
    else .quoted quote
  | .escaped quote, _ => .quoted quote

/-- What one more character adds to the code: nothing inside a comment, and one blank for a gap. -/
def shown : Stretch → Char → List Char
  | .code, c => if c = '/' then [] else if isBlank c then [' '] else [c]
  | .gap, c => if c = '/' ∨ isBlank c then [] else [c]
  | .slash inGap, c =>
    if c = '*' ∨ c = '/' then (if inGap then [] else [' '])
    else ['/', if isBlank c then ' ' else c]
  | .line, _ | .block, _ | .star, _ => []
  | .quoted _, c | .escaped _, c => [c]

end Stretch

def stepCode (s : Stretch × List Char) (c : Char) : Stretch × List Char :=
  (s.1.next c, s.2 ++ s.1.shown c)

/-- Inside a comment nothing is read until it ends. -/
theorem foldl_stepCode_inside {inside : List Char} (h : ¬ EndsComment inside) {stretch : Stretch}
    (hstretch : stretch = .block ∨ stretch = .star ∧ inside.head? ≠ some '/') (code : List Char) :
    ∃ stretch', (stretch' = .block ∨ stretch' = .star) ∧
      inside.foldl stepCode (stretch, code) = (stretch', code) := by
  induction inside generalizing stretch with
  | nil => exact ⟨stretch, hstretch.imp_right And.left, rfl⟩
  | cons c inside ih =>
    obtain ⟨hfirst, hlater⟩ := not_or.mp (mt endsComment_cons_iff.mpr h)
    have hnext : stretch.next c = .block ∨ stretch.next c = .star ∧ inside.head? ≠ some '/' := by
      by_cases hc : c = '*'
      · refine .inr ⟨?_, fun hslash => hfirst ⟨hc, hslash⟩⟩
        rcases hstretch with rfl | ⟨rfl, -⟩ <;> simp [Stretch.next, hc]
      · refine .inl ?_
        rcases hstretch with rfl | ⟨rfl, hslash⟩
        · simp [Stretch.next, hc]
        · simp [Stretch.next, hc, show c ≠ '/' by simpa using hslash]
    have hshown : stretch.shown c = [] := by
      rcases hstretch with rfl | ⟨rfl, -⟩ <;> rfl
    rw [List.foldl_cons, stepCode, hshown, List.append_nil]
    exact ih hlater hnext

def codeScanner : Scanner (Stretch × List Char) where
  next := stepCode
  AtLine s := s.1 = .gap
  blank := by
    rintro ⟨stretch, code⟩ c rfl (rfl | rfl) <;>
      simp [stepCode, Stretch.next, Stretch.shown, Stretch.behind, isBlank]
  comment := by
    rintro ⟨stretch, code⟩ inside rfl h
    obtain ⟨stretch', hstretch', hinside⟩ := foldl_stepCode_inside h (.inl rfl) code
    have hopen : ['/', '*'].foldl stepCode (.gap, code) = (.block, code) := by
      simp [stepCode, Stretch.next, Stretch.shown]
    have hclose : ['*', '/'].foldl stepCode (stretch', code) = (.gap, code) := by
      rcases hstretch' with rfl | rfl <;> simp [stepCode, Stretch.next, Stretch.shown]
    show (['/', '*'] ++ (inside ++ ['*', '/'])).foldl stepCode (.gap, code) = (.gap, code)
    rw [List.foldl_append, hopen, List.foldl_append, hinside, hclose]

/-- The code of a text from a stretch on, without its comments. -/
def codeFrom : Stretch → List Char → List Char
  | _, [] => []
  | stretch, c :: chars => stretch.shown c ++ codeFrom (stretch.next c) chars

theorem scan_codeScanner (chars : List Char) (stretch : Stretch) (code : List Char) :
    codeScanner.scan (stretch, code) chars =
      (chars.foldl Stretch.next stretch, code ++ codeFrom stretch chars) := by
  induction chars generalizing stretch code with
  | nil => simp [codeFrom]
  | cons c chars ih =>
    rw [Scanner.scan_cons, codeFrom, ← List.append_assoc]
    exact ih (stretch.next c) (code ++ stretch.shown c)

def codeOf (text : String) : String := String.ofList (codeFrom .gap text.toList)

theorem codeOf_congr {text text' : String}
    (h : codeScanner.scan (.gap, []) text.toList = codeScanner.scan (.gap, []) text'.toList) :
    codeOf text = codeOf text' := by
  rw [scan_codeScanner, scan_codeScanner, Prod.mk.injEq, List.nil_append, List.nil_append] at h
  rw [codeOf, codeOf, h.2]

theorem closes_codeScanner_iff (text : String) :
    codeScanner.Closes text ↔ (indentedLines (closedLines text)).foldl Stretch.next .gap = .gap := by
  constructor
  · intro h
    have hgap := h (.gap, []) rfl
    rwa [scan_codeScanner] at hgap
  · rintro h ⟨stretch, code⟩ rfl
    rw [scan_codeScanner]
    exact h

/-! ## Comments change nothing -/

/-- The comment on a signature is read whole, and the declaration stands right behind it, exactly if the
sign that ends comments does not stand in it; otherwise the comment ends at the first such sign, and what
follows there is read as code, up to the end that was written for the comment. So the comments of the
macros in a module that do not hold the sign change nothing in what is read of its block: whoever is
between two tokens where the first line of the block ends, and behind every text in it, reads the same as
without them. -/
theorem doc_comments_end_where_written (text comment name : String) (rest : List Char) (pos : Nat) :
    (Signature.readComment (Signature.writtenAt text comment name rest pos) =
        some (String.ofList (Signature.docText [] comment),
          Signature.commentEnd text comment name rest pos) ↔
      ¬ EndsComment comment.toList) ∧
    (Signature.commentEnd text comment name rest pos).rest =
      '\n' :: ((Signature.render ⟨text, none⟩ name).toList ++ rest) ∧
    (EndsComment comment.toList →
      ∃ inside spilled stop, Signature.docText [] comment = inside ++ '*' :: '/' :: spilled ∧
        Signature.readComment (Signature.writtenAt text comment name rest pos) =
          some (String.ofList inside, stop) ∧
        stop.rest = spilled ++
          '*' :: '/' :: '\n' :: ((Signature.render ⟨text, none⟩ name).toList ++ rest)) ∧
    ∀ {σ : Type} (S : Scanner σ) (s : σ) (module : String) (definitions : List Definition)
      (more : List String),
      (∀ d ∈ definitions, ∃ handler m, d.finish handler = .ok m) →
      (∀ d ∈ definitions, ∀ signature ∈ d.signatures, ∀ comment, signature.comment = some comment →
        ¬ EndsComment comment.toList) →
      (∀ d ∈ definitions, ∀ text ∈ d.withoutComments.texts, S.Closes text) →
      S.AtLine (S.scan s (openingLine module).toList) →
        S.scan s (renderDeclaration module (definitions.map Definition.typeText ++ more)).toList =
          S.scan s (renderDeclaration module
            (definitions.map (fun d => d.withoutComments.typeText) ++ more)).toList := by
  refine ⟨Signature.readComment_writtenAt_iff text comment name rest pos,
    Signature.rest_commentEnd text comment name rest pos,
    Signature.readComment_writtenAt_of_endsComment text comment name rest pos, ?_⟩
  intro σ S s module definitions more hfinish hcomments hcloses hs
  exact Scanner.scan_withoutComments hs hfinish hcomments hcloses more

-- a comment that a signature leaves open is closed by the comment of the next one, so that one matters
example :
    let d : Definition := { name := "f", signatures := [⟨"()/*", none⟩, ⟨"()", some ""⟩] }
    codeOf (renderDeclaration "m" [d.typeText]) =
        "declare module 'm' \x7b export function f() export function f(); \x7d " ∧
      codeOf (renderDeclaration "m" [d.withoutComments.typeText]) =
        "declare module 'm' \x7b export function f() " := by
  decide +kernel

/-- A definition with a comment that comes close to its end, behind a type with the sign for a comment in
quotes. -/
def opens : Definition where
  name := "f"
  customTypes := ["type T = '/*'; // '"]
  signatures := [⟨"(): T;", some "Opens. *\r\n/ or not: * / \n\n//*"⟩, ⟨"(t: T): T", none⟩]

theorem comments_read_as_written :
    (EndsComment "a **/ b".toList ∧
      ∃ inside spilled stop, Signature.docText [] "a **/ b" = inside ++ '*' :: '/' :: spilled ∧
        Signature.readComment (Signature.writtenAt "()" "a **/ b" "f" ['\n'] 0) =
          some (String.ofList inside, stop) ∧
        stop.rest = spilled ++
          '*' :: '/' :: '\n' :: ((Signature.render ⟨"()", none⟩ "f").toList ++ ['\n'])) ∧
    (∃ handler m, opens.finish handler = .ok m) ∧
    codeOf (renderDeclaration "m" ([opens].map Definition.typeText ++ ["type E = '*/';"])) =
      codeOf (renderDeclaration "m"
        ([opens].map (fun d => d.withoutComments.typeText) ++ ["type E = '*/';"])) ∧
    codeOf (renderDeclaration "m"
        ([opens].map (fun d => d.withoutComments.typeText) ++ ["type E = '*/';"])) =
      "declare module 'm' \x7b type T = '/*'; export function f(): T; export function f(t: T): T; " ++
        "type E = '*/'; \x7d " := by
  have hends : EndsComment "a **/ b".toList := by decide +kernel
  have hfinish : ∀ d ∈ [opens], ∃ handler m, d.finish handler = .ok m := by
    intro d hd
    rw [List.mem_singleton.mp hd]
    exact ⟨.context fun _ => pure (), _, rfl⟩
  have hcomments : ∀ d ∈ [opens], ∀ signature ∈ d.signatures, ∀ comment,
      signature.comment = some comment → ¬ EndsComment comment.toList := by
    intro d hd signature hsignature comment hcomment
    rw [List.mem_singleton.mp hd] at hsignature
    simp only [opens, List.mem_cons, List.not_mem_nil, or_false] at hsignature
    rcases hsignature with rfl | rfl
    · cases hcomment
      decide +kernel
    · cases hcomment
  have hcloses : ∀ d ∈ [opens], ∀ text ∈ d.withoutComments.texts, codeScanner.Closes text := by
    simp only [closes_codeScanner_iff]
    decide +kernel
  have hopen : codeScanner.AtLine (codeScanner.scan (.gap, []) (openingLine "m").toList) := by
    rw [scan_codeScanner]
    show _ = Stretch.gap
    decide +kernel
  obtain ⟨-, -, hearly, hmodule⟩ := doc_comments_end_where_written "()" "a **/ b" "f" ['\n'] 0
  have hsame := hmodule codeScanner (.gap, []) "m" [opens] ["type E = '*/';"] hfinish hcomments hcloses
    hopen
  exact ⟨⟨hends, hearly hends⟩, hfinish opens List.mem_cons_self, codeOf_congr hsame, by decide +kernel⟩

/-- A definition with a comment that ends itself. -/
def leaky : Definition where
  name := "f"
  signatures := [⟨"(): void", some "see */ export const x: any; /*"⟩]

/-- The comment that is read ends early, and what follows in its text declares something else. -/
theorem comment_that_ends_itself_declares :
    (Definition.start "f").map (·.withSignature ⟨"(): void", some "see */ export const x: any; /*"⟩) =
      .ok leaky ∧
    (∃ handler m, leaky.finish handler = .ok m ∧ m.typeText = leaky.typeText) ∧
    (Signature.readComment
      (Signature.writtenAt "(): void" "see */ export const x: any; /*" "f" [] 0)).map (·.1) =
        some "*\n * see " ∧
    codeOf (renderDeclaration "m" [leaky.typeText]) =
      "declare module 'm' \x7b export const x: any; export function f(): void; \x7d " ∧
    codeOf (renderDeclaration "m" [leaky.withoutComments.typeText]) =
      "declare module 'm' \x7b export function f(): void; \x7d " :=
  ⟨rfl, ⟨.context fun _ => pure (), _, rfl, rfl⟩, by decide +kernel, by decide +kernel,
    by decide +kernel⟩

end CallExpander

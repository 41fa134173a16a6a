import LicenseSurvey.Proofs.Text.Line
import LicenseSurvey.Proofs.Text.Row

/-! # Paragraphs line by line

A paragraph can be told in two ways: as a piece between two line feeds in a row, or as a
run of lines that are not empty. An odd number of line feeds leaves one of them at the
front of the next piece, and a line feed at the end of the text stays in the last one.
Apart from such empty lines at its ends a piece is one run.
-/

namespace LicenseSurvey.Text

def rawLines (document : Text) : List Text :=
  rows (unixEndings document)

/-! ## Runs -/

def runs (lines : List Text) : List (List Text) :=
  (splitBy List.isEmpty lines).filter fun run => !run.isEmpty

def IsBlankRun (lines : List Text) : Prop :=
  ∀ line ∈ lines, ∀ character ∈ line, isBlank character = true

instance (lines : List Text) : Decidable (IsBlankRun lines) :=
  decidable_of_iff (lines.all fun line => line.all isBlank)
    (by simp only [List.all_eq_true, IsBlankRun])

def lineParagraphs (document : Text) : List (List Text) :=
  (runs (rawLines document)).filter fun run => !decide (IsBlankRun run)

example : lineParagraphs "\n\na\nb\r\n\n\n \n\nc".toList =
    [["a".toList, "b".toList], ["c".toList]] := by decide

@[simp] theorem runs_nil : runs [] = [] := rfl

theorem runs_append_nil_cons (left right : List Text) :
    runs (left ++ [] :: right) = runs left ++ runs right := by
  rw [runs, splitBy_append List.isEmpty_nil, List.filter_append, runs, runs]

@[simp] theorem runs_nil_cons (lines : List Text) : runs ([] :: lines) = runs lines :=
  runs_append_nil_cons [] lines

theorem runs_of_ne_nil {lines : List Text} (inside : ∀ line ∈ lines, line ≠ [])
    (notEmpty : lines ≠ []) : runs lines = [lines] := by
  rw [runs, splitBy_of_not_isSeparator fun line member => by simp [inside line member]]
  simp [notEmpty]

/-- An empty line at an end, or beside another empty line, is in no run. -/
theorem runs_append_of_gap {left right : List Text}
    (gap : left = [] ∨ left.getLast? = some [] ∨ right = [] ∨ right.head? = some []) :
    runs (left ++ right) = runs left ++ runs right := by
  rcases gap with rfl | last | rfl | first
  · rfl
  · obtain ⟨front, rfl⟩ := List.getLast?_eq_some_iff.mp last
    rw [List.append_assoc, List.singleton_append, runs_append_nil_cons, runs_append_nil_cons,
      runs_nil, List.append_nil]
  · rw [runs_nil, List.append_nil, List.append_nil]
  · obtain ⟨back, rfl⟩ := List.head?_eq_some_iff.mp first
    rw [runs_append_nil_cons, runs_nil_cons]

theorem runs_replicate_of_gap {left right : List Text}
    (gap : left = [] ∨ left.getLast? = some [] ∨ right = [] ∨ right.head? = some [])
    (count : Nat) : runs (left ++ (List.replicate count [] ++ right)) = runs (left ++ right) := by
  have front (count : Nat) : runs (List.replicate count [] ++ right) = runs right := by
    induction count with
    | zero => rfl
    | succ count induction =>
        rw [List.replicate_succ, List.cons_append, runs_nil_cons, induction]
  cases count with
  | zero => rfl
  | succ count =>
      rw [List.replicate_succ, List.cons_append, runs_append_nil_cons, front,
        runs_append_of_gap gap]

/-! ## Pieces between blank lines -/

theorem splitAtBlankLines_ne_nil (text : Text) : splitAtBlankLines text ≠ [] := by
  fun_cases splitAtBlankLines text <;> simp

theorem splitAtBlankLines_eq_cons {text piece : Text} {pieces : List Text}
    (split : splitAtBlankLines text = piece :: pieces) :
    ¬['\n', '\n'] <:+: piece ∧
      (pieces = [] ∧ text = piece ∨
        ∃ rest, text = piece ++ '\n' :: '\n' :: rest ∧ pieces = splitAtBlankLines rest) := by
  fun_induction splitAtBlankLines text generalizing piece pieces with
  | case1 rest induction =>
      rw [List.cons.injEq] at split
      obtain ⟨rfl, rfl⟩ := split
      exact ⟨by simp, .inr ⟨rest, rfl, rfl⟩⟩
  | case2 character rest notFeeds none induction =>
      exact absurd none (splitAtBlankLines_ne_nil rest)
  | case3 character rest notFeeds first later behind induction =>
      rw [List.cons.injEq] at split
      obtain ⟨rfl, rfl⟩ := split
      obtain ⟨single, whole⟩ := induction behind
      constructor
      · rw [List.infix_cons_iff]
        rintro (⟨after, front⟩ | inside)
        · rw [List.cons_append, List.cons_append, List.cons.injEq, List.nil_append] at front
          -- A line feed in front of a piece that begins with one would end a piece there.
          have next : ∃ behind, rest = '\n' :: behind := by
            rcases whole with ⟨-, rfl⟩ | ⟨others, rfl, -⟩
            · exact ⟨after, front.2.symm⟩
            · exact ⟨after ++ '\n' :: '\n' :: others, by rw [← front.2]; rfl⟩
          obtain ⟨others, rfl⟩ := next
          exact notFeeds others front.1.symm rfl
        · exact single inside
      · rcases whole with ⟨none, rfl⟩ | ⟨others, rfl, rest⟩
        · exact .inl ⟨none, rfl⟩
        · exact .inr ⟨others, rfl, rest⟩
  | case4 =>
      rw [List.cons.injEq] at split
      obtain ⟨rfl, rfl⟩ := split
      exact ⟨by simp, .inl ⟨rfl, rfl⟩⟩

theorem not_infix_of_mem_splitAtBlankLines {text piece : Text}
    (member : piece ∈ splitAtBlankLines text) : ¬['\n', '\n'] <:+: piece := by
  generalize split : splitAtBlankLines text = pieces at member
  induction pieces generalizing text with
  | nil => exact absurd member List.not_mem_nil
  | cons first later induction =>
      obtain ⟨single, behind⟩ := splitAtBlankLines_eq_cons split
      rcases List.mem_cons.mp member with rfl | member
      · exact single
      · rcases behind with ⟨rfl, -⟩ | ⟨rest, -, rfl⟩
        · exact absurd member List.not_mem_nil
        · exact induction rfl member

theorem runs_rows (text : Text) :
    runs (rows text) =
      (splitAtBlankLines text).flatMap fun piece => runs (rows piece) := by
  generalize split : splitAtBlankLines text = pieces
  induction pieces generalizing text with
  | nil => exact absurd split (splitAtBlankLines_ne_nil text)
  | cons piece pieces induction =>
      rw [List.flatMap_cons]
      rcases (splitAtBlankLines_eq_cons split).2 with ⟨rfl, rfl⟩ | ⟨rest, rfl, rfl⟩
      · rw [List.flatMap_nil, List.append_nil]
      · have empty : rows ('\n' :: rest) = [] :: rows rest := rows_append [] rest
        rw [rows_append, empty, runs_append_nil_cons, induction rest rfl]

/-! ## One piece -/

theorem eq_nil_of_rows {piece : Text} (single : ¬['\n', '\n'] <:+: piece)
    {left right : List Text} (split : rows piece = left ++ [] :: right) :
    left = [] ∨ right = [] := by
  by_contra inner
  rw [not_or] at inner
  apply single
  refine ⟨join ['\n'] left, join ['\n'] right, ?_⟩
  have between : join ['\n'] ([] :: right) = '\n' :: join ['\n'] right :=
    join_append (List.cons_ne_nil _ []) inner.2
  rw [← join_rows piece, split, join_append inner.1 (List.cons_ne_nil _ _), between]
  simp

/-- Apart from an empty last line, a text without two line feeds in a row has an empty line
at most at its front. -/
theorem exists_core {piece : Text} (single : ¬['\n', '\n'] <:+: piece) :
    ∃ front core, withoutLast [] (rows piece) = front ++ core ∧
      (front = [] ∨ front = [[]]) ∧ ∀ line ∈ core, line ≠ [] := by
  obtain ⟨ahead, last, split⟩ := exists_rows_eq_concat piece
  have atFront {left right : List Text}
      (empty : withoutLast [] (rows piece) = left ++ [] :: right) : left = [] := by
    by_cases final : last = []
    · rw [split, final, withoutLast_concat] at empty
      rw [empty, List.append_assoc, List.cons_append] at split
      exact (eq_nil_of_rows single split).resolve_right (by simp)
    · rw [withoutLast_of_getLast?_ne (by simp [split, final])] at empty
      apply (eq_nil_of_rows single empty).resolve_right
      rintro rfl
      rw [split] at empty
      exact final (List.append_inj_right' empty rfl |> List.singleton_inj.mp)
  cases lines : withoutLast [] (rows piece) with
  | nil => exact ⟨[], [], by simp⟩
  | cons first rest =>
      have full : ∀ line ∈ rest, line ≠ [] := by
        rintro line member rfl
        obtain ⟨left, right, rfl⟩ := List.append_of_mem member
        exact List.cons_ne_nil first left (atFront lines)
      cases first with
      | nil => exact ⟨[[]], rest, rfl, .inr rfl, full⟩
      | cons character others =>
          refine ⟨[], (character :: others) :: rest, rfl, .inl rfl, ?_⟩
          exact List.forall_mem_cons.mpr ⟨List.cons_ne_nil _ _, full⟩

theorem runs_withoutLast (lines : List Text) : runs (withoutLast [] lines) = runs lines := by
  rw [withoutLast]
  split
  · rename_i last
    obtain ⟨front, rfl⟩ := List.getLast?_eq_some_iff.mp last
    rw [List.dropLast_concat, runs_append_nil_cons, runs_nil, List.append_nil]
  · rfl

theorem isBlankRun_rows_iff (text : Text) :
    IsBlankRun (rows text) ↔ ∀ character ∈ text, isBlank character = true := by
  induction text with
  | nil => simp [IsBlankRun, rows]
  | cons character rest induction =>
      obtain ⟨first, later, split⟩ := List.exists_cons_of_ne_nil (rows_ne_nil rest)
      rw [rows] at split
      rw [IsBlankRun, rows, split] at induction
      by_cases feed : character = '\n'
      · subst feed
        have blank : isBlank '\n' = true := by decide
        simpa [IsBlankRun, rows, splitBy, split, blank] using induction
      · simp only [IsBlankRun, rows, splitBy, split, beq_iff_eq, feed, if_false,
          List.forall_mem_cons] at induction ⊢
        rw [and_assoc, induction]

theorem isBlankRun_withoutLast_iff (lines : List Text) :
    IsBlankRun (withoutLast [] lines) ↔ IsBlankRun lines := by
  rw [withoutLast]
  split
  · rename_i last
    obtain ⟨front, rfl⟩ := List.getLast?_eq_some_iff.mp last
    simp [IsBlankRun, or_imp, forall_and]
  · rfl

/-! ## Lines of one piece -/

theorem trim_withoutLast (text : Text) : trim (withoutLast '\r' text) = trim text := by
  rw [withoutLast]
  split
  · rename_i last
    obtain ⟨front, rfl⟩ := List.getLast?_eq_some_iff.mp last
    rw [List.dropLast_concat, trim_concat_blank (by decide)]
  · rfl

theorem map_trim_lines (text : Text) :
    (lines text).map trim = (withoutLast [] (rows text)).map trim := by
  obtain ⟨ahead, last, split⟩ := exists_rows_eq_concat text
  have returns : trim ∘ withoutLast '\r' = trim := funext trim_withoutLast
  rw [lines, ← rows, split, List.dropLast_concat, List.getLast?_concat, List.map_append,
    List.map_map, returns]
  cases last with
  | nil => simp [withoutLast_concat]
  | cons character rest =>
      rw [withoutLast_of_getLast?_ne (by simp), List.map_append]
      rfl

/-- A piece without two line feeds in a row is one run or blank, and whatever is read from
trimmed lines and not from an empty line in front is read from either. -/
theorem map_filter_runs_rows {Result : Type} {read : List Text → Result}
    (trims : ∀ lines, read (lines.map trim) = read lines)
    (skips : ∀ lines, read ([] :: lines) = read lines) {piece : Text}
    (single : ¬['\n', '\n'] <:+: piece) :
    ((runs (rows piece)).filter fun run => !decide (IsBlankRun run)).map read =
      if trim piece = [] then [] else [read (lines piece)] := by
  obtain ⟨front, core, whole, frontEmpty, full⟩ := exists_core single
  have ofLines : read (lines piece) = read core := by
    rw [← trims, map_trim_lines, trims, whole]
    rcases frontEmpty with rfl | rfl
    · rfl
    · exact skips core
  have run : runs (rows piece) = runs core := by
    rw [← runs_withoutLast, whole]
    rcases frontEmpty with rfl | rfl
    · rfl
    · exact runs_nil_cons core
  have blank : trim piece = [] ↔ IsBlankRun core := by
    rw [trim_eq_nil_iff, ← isBlankRun_rows_iff, ← isBlankRun_withoutLast_iff, whole]
    rcases frontEmpty with rfl | rfl <;> simp [IsBlankRun]
  rw [run, ofLines]
  by_cases empty : core = []
  · rw [if_pos (blank.mpr (by simp [empty, IsBlankRun])), empty]
    rfl
  · rw [runs_of_ne_nil full empty]
    by_cases isBlank : IsBlankRun core
    · simp [blank, isBlank]
    · simp [blank, isBlank]

/-- What is read from the paragraphs of a document is read from its runs of lines. -/
theorem map_paragraphs {Result : Type} {read : List Text → Result}
    (trims : ∀ lines, read (lines.map trim) = read lines)
    (skips : ∀ lines, read ([] :: lines) = read lines) (document : Text) :
    ((paragraphs document).map fun piece => read (lines piece)) =
      (lineParagraphs document).map read := by
  have each (pieces : List Text) (single : ∀ piece ∈ pieces, ¬['\n', '\n'] <:+: piece) :
      ((pieces.filter fun piece => !(trim piece).isEmpty).map fun piece => read (lines piece)) =
        pieces.flatMap fun piece =>
          ((runs (rows piece)).filter fun run => !decide (IsBlankRun run)).map read := by
    induction pieces with
    | nil => rfl
    | cons piece pieces induction =>
        rw [List.flatMap_cons,
          map_filter_runs_rows trims skips (single piece (List.mem_cons_self ..)),
          ← induction fun later member => single later (List.mem_cons_of_mem _ member)]
        by_cases blank : trim piece = [] <;> simp [blank]
  rw [paragraphs, lineParagraphs, rawLines, runs_rows, List.filter_flatMap, List.map_flatMap,
    each _ fun piece member => not_infix_of_mem_splitAtBlankLines member]

/-! ## Documents without paragraphs -/

theorem forall_mem_unixEndings_iff (document : Text) :
    (∀ character ∈ unixEndings document, isBlank character = true) ↔
      ∀ character ∈ document, isBlank character = true := by
  have returns : isBlank '\r' = true := by decide
  fun_induction unixEndings document with
  | case1 rest induction => simp [induction, returns]
  | case2 character rest notReturn induction => simp [induction]
  | case3 => simp

theorem forall_mem_runs_iff (lines : List Text) :
    (∀ run ∈ runs lines, IsBlankRun run) ↔ IsBlankRun lines := by
  constructor
  · intro blank line member character inside
    have full : line.isEmpty = false := by
      rw [List.isEmpty_eq_false_iff]
      exact List.ne_nil_of_mem inside
    obtain ⟨run, among, there⟩ := exists_mem_splitBy List.isEmpty member full
    have kept : run ∈ runs lines := by
      apply List.mem_filter.mpr ⟨among, _⟩
      simpa using List.ne_nil_of_mem there
    exact blank run kept line there character inside
  · intro blank run among line member
    exact blank line (mem_of_mem_splitBy (List.mem_filter.mp among).1 member)

theorem lineParagraphs_eq_nil_iff (document : Text) :
    lineParagraphs document = [] ↔ ∀ character ∈ document, isBlank character = true := by
  rw [lineParagraphs, List.filter_eq_nil_iff, ← forall_mem_unixEndings_iff,
    ← isBlankRun_rows_iff, ← forall_mem_runs_iff]
  simp [rawLines]

/-! ## Written paragraphs -/

structure IsParagraph (lines : List Text) : Prop where
  notBlank : ¬IsBlankRun lines
  notEmpty : ∀ line ∈ lines, line ≠ []
  noFeed : ∀ line ∈ lines, '\n' ∉ line
  noReturn : ∀ line ∈ lines, line.getLast? ≠ some '\r'

theorem unixEndings_eq_self {text : Text}
    (noReturn : ∀ row ∈ rows text, row.getLast? ≠ some '\r') : unixEndings text = text := by
  fun_induction unixEndings text with
  | case1 rest induction =>
      have first : rows ('\r' :: '\n' :: rest) = ['\r'] :: rows rest := rows_append ['\r'] rest
      exact absurd rfl (noReturn ['\r'] (first ▸ List.mem_cons_self ..))
  | case2 character rest notReturn induction =>
      rw [List.cons.injEq]
      refine ⟨rfl, induction ?_⟩
      obtain ⟨first, later, split⟩ := List.exists_cons_of_ne_nil (rows_ne_nil rest)
      by_cases feed : character = '\n'
      · subst feed
        intro row member
        have front : rows ('\n' :: rest) = [] :: rows rest := rows_append [] rest
        exact noReturn row (front ▸ List.mem_cons_of_mem _ member)
      · have front : rows (character :: rest) = (character :: first) :: later := by
          rw [rows, splitBy, ← rows, split]
          simp [feed]
        rw [front, List.forall_mem_cons] at noReturn
        rw [split, List.forall_mem_cons]
        refine ⟨?_, noReturn.2⟩
        intro returns
        apply noReturn.1
        rw [List.getLast?_cons, returns, Option.getD_some]
  | case3 => rfl

theorem rows_append_replicate (text : Text) (count : Nat) :
    rows (text ++ List.replicate count '\n') = rows text ++ List.replicate count [] := by
  induction count with
  | zero => simp
  | succ count induction =>
      have last := rows_append (text ++ List.replicate count '\n') []
      rw [List.replicate_succ', List.replicate_succ', ← List.append_assoc, ← List.append_assoc,
        last, induction]
      rfl

theorem IsParagraph.ne_nil {lines : List Text} (paragraph : IsParagraph lines) : lines ≠ [] := by
  rintro rfl
  exact paragraph.notBlank (by simp [IsBlankRun])

theorem runs_of_isParagraph {first : List Text} {later : List (List Text)}
    (each : ∀ paragraph ∈ first :: later, IsParagraph paragraph) :
    runs (first ++ later.flatMap fun paragraph => [] :: paragraph) = first :: later := by
  induction later generalizing first with
  | nil =>
      have here := each first (List.mem_cons_self ..)
      rw [List.flatMap_nil, List.append_nil]
      exact runs_of_ne_nil here.notEmpty here.ne_nil
  | cons next later induction =>
      obtain ⟨here, behind⟩ := List.forall_mem_cons.mp each
      rw [List.flatMap_cons, List.cons_append, runs_append_nil_cons, induction behind,
        runs_of_ne_nil here.notEmpty here.ne_nil, List.singleton_append]

theorem forall_mem_written {Holds : Text → Prop} (empty : Holds []) {first : List Text}
    {later : List (List Text)}
    (inside : ∀ paragraph ∈ first :: later, ∀ line ∈ paragraph, Holds line) :
    ∀ line ∈ first ++ later.flatMap fun paragraph => [] :: paragraph, Holds line := by
  obtain ⟨here, behind⟩ := List.forall_mem_cons.mp inside
  rw [List.forall_mem_append]
  refine ⟨here, ?_⟩
  intro line member
  obtain ⟨paragraph, among, member⟩ := List.mem_flatMap.mp member
  rcases List.mem_cons.mp member with rfl | member
  · exact empty
  · exact behind paragraph among line member

/-- Paragraphs that are written with an empty line between them are read back, however many
line feeds follow them. -/
theorem lineParagraphs_of_isParagraph {first : List Text} {later : List (List Text)}
    (each : ∀ paragraph ∈ first :: later, IsParagraph paragraph) (feeds : Nat) :
    lineParagraphs (join ['\n'] (first ++ later.flatMap fun paragraph => [] :: paragraph) ++
      List.replicate feeds '\n') = first :: later := by
  have noFeed := forall_mem_written List.not_mem_nil fun paragraph member =>
    (each paragraph member).noFeed
  have noReturn := @forall_mem_written (·.getLast? ≠ some '\r') (by simp) first later
    fun paragraph member => (each paragraph member).noReturn
  have notEmpty : (first ++ later.flatMap fun paragraph => [] :: paragraph) ≠ [] :=
    List.append_ne_nil_of_left_ne_nil (each first (List.mem_cons_self ..)).ne_nil _
  have whole := runs_of_isParagraph each
  generalize (first ++ later.flatMap fun paragraph => [] :: paragraph) = written at *
  have lines : rows (join ['\n'] written ++ List.replicate feeds '\n') =
      written ++ List.replicate feeds [] := by
    rw [rows_append_replicate, rows_join noFeed notEmpty]
  have endings : unixEndings (join ['\n'] written ++ List.replicate feeds '\n') =
      join ['\n'] written ++ List.replicate feeds '\n' := by
    apply unixEndings_eq_self
    rw [lines, List.forall_mem_append]
    refine ⟨noReturn, ?_⟩
    intro line member
    simp [List.eq_of_mem_replicate member]
  have gap := @runs_replicate_of_gap written [] (.inr (.inr (.inl rfl))) feeds
  rw [List.append_nil, List.append_nil] at gap
  rw [lineParagraphs, rawLines, endings, lines, gap, whole, List.filter_eq_self]
  intro paragraph member
  simpa using (each paragraph member).notBlank

end LicenseSurvey.Text

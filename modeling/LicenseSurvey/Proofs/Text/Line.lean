import LicenseSurvey.Proofs.Text.Split
import LicenseSurvey.Proofs.Text.Utf8
import LicenseSurvey.Text.Line

/-! # The lines of a file

What is in a file is in one of its lines, line endings apart, and a file begins with its
first line. A file that was written line by line has these lines. The lines of a file and those
of a text end at different places, but both are read one after the other, each for itself.
-/

namespace LicenseSurvey.Text

/-! ## Endings -/

section

variable {α : Type} [DecidableEq α] {element : α} {elements : List α}

theorem withoutLast_prefix : withoutLast element elements <+: elements := by
  rw [withoutLast]
  split
  · exact List.dropLast_prefix elements
  · exact List.prefix_rfl

theorem withoutLast_of_getLast?_ne (other : elements.getLast? ≠ some element) :
    withoutLast element elements = elements :=
  if_neg other

theorem withoutLast_concat : withoutLast element (elements ++ [element]) = elements := by
  rw [withoutLast, if_pos List.getLast?_concat, List.dropLast_concat]

theorem mem_withoutLast {kept : α} (member : kept ∈ elements) (different : kept ≠ element) :
    kept ∈ withoutLast element elements := by
  rw [withoutLast]
  split
  · rename_i last
    obtain ⟨front, split⟩ := List.getLast?_eq_some_iff.mp last
    rw [split] at member ⊢
    rw [List.dropLast_concat]
    rcases List.mem_append.mp member with inside | equal
    · exact inside
    · exact absurd (List.mem_singleton.mp equal) different
  · exact member

end

/-! ## Lines -/

theorem byteLines_eq (content : Bytes) {pieces : List Bytes} {last : Bytes}
    (split : splitBy (· == 10) content = pieces ++ [last]) :
    byteLines content =
      (pieces ++ if last = [] then [] else [last]).map (withoutLast 13) := by
  cases last with
  | nil => simp [byteLines, split]
  | cons byte rest => simp [byteLines, split]

theorem byteLines_of_notMem {content : Bytes} (noFeed : 10 ∉ content) (notEmpty : content ≠ []) :
    byteLines content = [withoutLast 13 content] := by
  rw [byteLines, splitBy_of_notMem noFeed]
  simp [notEmpty]

theorem lines_of_notMem {text : Text} (noFeed : '\n' ∉ text) (notEmpty : text ≠ []) :
    lines text = [text] := by
  rw [lines, splitBy_of_notMem noFeed]
  simp [notEmpty]

/-- A way to read lines one after the other: each line is read for itself, and behind the last
line feed there is at most one more. -/
structure ReadsLines {α Line : Type} (feed : α) (ofLine : List α → Line)
    (read : List α → List Line) : Prop where
  nil : read [] = []
  last : ∀ rest, feed ∉ rest → (read rest).length ≤ 1
  line : ∀ line rest, feed ∉ line → read (line ++ feed :: rest) = ofLine line :: read rest

theorem readsLines_byteLines : ReadsLines 10 (withoutLast 13) byteLines where
  nil := rfl
  last rest noFeed := by
    rw [byteLines, splitBy_of_notMem noFeed]
    by_cases empty : rest = [] <;> simp [empty]
  line line rest noFeed := by
    obtain ⟨piece, pieces, split⟩ := List.exists_cons_of_ne_nil (splitBy_ne_nil (· == 10) rest)
    rw [byteLines, byteLines, splitBy_append_of_notMem noFeed, split]
    simp

theorem readsLines_lines : ReadsLines '\n' (withoutLast '\r') lines where
  nil := rfl
  last rest noFeed := by
    rw [lines, splitBy_of_notMem noFeed]
    by_cases empty : rest = [] <;> simp [empty]
  line line rest noFeed := by
    obtain ⟨piece, pieces, split⟩ :=
      List.exists_cons_of_ne_nil (splitBy_ne_nil (· == '\n') rest)
    rw [lines, lines, splitBy_append_of_notMem noFeed, split]
    simp

theorem noFeed_of_mem_lines {text line : Text} (member : line ∈ lines text) : '\n' ∉ line := by
  rcases List.mem_append.mp member with ended | last
  · rcases List.mem_map.mp ended with ⟨piece, among, rfl⟩
    have whole := notMem_of_mem_splitBy (List.dropLast_subset _ among)
    exact fun feed => whole (List.IsPrefix.subset withoutLast_prefix feed)
  · have final := Option.mem_toList.mp (List.mem_filter.mp last).1
    exact notMem_of_mem_splitBy (List.mem_of_mem_getLast? final)

theorem noFeed_of_mem_byteLines {content line : Bytes} (member : line ∈ byteLines content) :
    10 ∉ line := by
  rcases List.mem_map.mp member with ⟨piece, among, rfl⟩
  have whole : 10 ∉ piece := by
    rcases List.mem_append.mp among with ended | last
    · exact notMem_of_mem_splitBy (List.dropLast_subset _ ended)
    · have final := Option.mem_toList.mp (List.mem_filter.mp last).1
      exact notMem_of_mem_splitBy (List.mem_of_mem_getLast? final)
  exact fun feed => whole (List.IsPrefix.subset withoutLast_prefix feed)

inductive AllEnded {α : Type} (feed : α) : List α → Prop
  | nil : AllEnded feed []
  | line {line rest : List α} (noFeed : feed ∉ line) (later : AllEnded feed rest) :
      AllEnded feed (line ++ feed :: rest)

theorem allEnded_of_getLast? {α : Type} [DecidableEq α] {feed : α} {front : List α}
    (whole : front = [] ∨ front.getLast? = some feed) : AllEnded feed front := by
  induction front using induction_pieces feed with
  | last rest noFeed =>
      rcases whole with empty | ends
      · exact empty ▸ .nil
      · exact absurd (List.mem_of_getLast? ends) noFeed
  | piece line rest noFeed induction =>
      refine .line noFeed (induction ?_)
      cases rest with
      | nil => exact .inl rfl
      | cons element rest => exact .inr (by simpa using whole)

/-- Behind the ending of a line reading begins anew. -/
theorem ReadsLines.append {α Line : Type} {feed : α} {ofLine : List α → Line}
    {read : List α → List Line} (reads : ReadsLines feed ofLine read) {front : List α}
    (ended : AllEnded feed front) (back : List α) :
    read (front ++ back) = read front ++ read back := by
  induction ended with
  | nil => rw [reads.nil, List.nil_append, List.nil_append]
  | line noFeed _ induction =>
      rw [List.append_assoc, List.cons_append, reads.line _ _ noFeed, reads.line _ _ noFeed,
        induction, List.cons_append]

theorem ReadsLines.length_eq_count {α Line : Type} [DecidableEq α] {feed : α}
    {ofLine : List α → Line} {read : List α → List Line} (reads : ReadsLines feed ofLine read)
    {front : List α} (ended : AllEnded feed front) :
    (read front).length = front.count feed := by
  induction ended with
  | nil => rw [reads.nil, List.count_nil, List.length_nil]
  | line noFeed _ induction =>
      rw [reads.line _ _ noFeed, List.length_cons, induction, List.count_append,
        List.count_eq_zero.mpr noFeed, List.count_cons_self, Nat.zero_add]

theorem exists_mem_byteLines {content : Bytes} {byte : UInt8} (member : byte ∈ content)
    (noFeed : byte ≠ 10) (noReturn : byte ≠ 13) : ∃ line ∈ byteLines content, byte ∈ line := by
  have plain : (byte == 10) = false := beq_eq_false_iff_ne.mpr noFeed
  obtain ⟨piece, among, inside⟩ := exists_mem_splitBy (· == 10) member plain
  obtain ⟨pieces, last, split⟩ := exists_splitBy_eq_concat (· == 10) content
  refine ⟨withoutLast 13 piece, ?_, mem_withoutLast inside noReturn⟩
  rw [byteLines_eq content split]
  apply List.mem_map_of_mem
  rw [split] at among
  rcases List.mem_append.mp among with earlier | final
  · exact List.mem_append_left _ earlier
  · have equal := List.mem_singleton.mp final
    rw [← equal, if_neg (List.ne_nil_of_mem inside)]
    exact List.mem_append_right _ (List.mem_singleton_self piece)

theorem prefix_of_byteLines {content line : Bytes} {lines : List Bytes}
    (split : byteLines content = line :: lines) : line <+: content := by
  obtain ⟨pieces, last, pieces_eq⟩ := exists_splitBy_eq_concat (· == 10) content
  rw [byteLines_eq content pieces_eq] at split
  cases pieces with
  | nil =>
      by_cases empty : last = []
      · simp [empty] at split
      · rw [if_neg empty, List.nil_append, List.map_singleton, List.cons.injEq] at split
        rw [← split.1]
        exact withoutLast_prefix.trans (prefix_of_splitBy pieces_eq)
  | cons first pieces =>
      rw [List.cons_append, List.map_cons, List.cons.injEq] at split
      rw [← split.1]
      exact withoutLast_prefix.trans (prefix_of_splitBy pieces_eq)

theorem byteLines_encode {lines : List Text} (noFeed : ∀ line ∈ lines, '\n' ∉ line)
    (noReturn : ∀ line ∈ lines, line.getLast? ≠ some '\r') :
    byteLines (encode (lines.flatMap fun line => line ++ ['\n'])) = lines.map encode := by
  have written : encode (lines.flatMap fun line => line ++ ['\n']) =
      (lines.map encode).flatMap fun line => line ++ [10] := by
    induction lines with
    | nil => rfl
    | cons line lines induction =>
        rw [List.flatMap_cons, encode_append, encode_append,
          induction (fun later member => noFeed later (List.mem_cons_of_mem _ member))
            fun later member => noReturn later (List.mem_cons_of_mem _ member)]
        rfl
  have plain : ∀ piece ∈ lines.map encode, ∀ byte ∈ piece, (byte == 10) = false := by
    intro piece among byte inside
    obtain ⟨line, member, equal⟩ := List.mem_map.mp among
    rw [beq_eq_false_iff_ne]
    rintro rfl
    exact noFeed line member (mem_of_mem_encode (equal ▸ inside) (by decide))
  have feed : ((10 : UInt8) == 10) = true := rfl
  have split := splitBy_flatMap (· == 10) feed plain
  rw [written, byteLines_eq _ split, if_pos rfl, List.append_nil, List.map_map]
  apply List.map_congr_left
  intro line member
  apply withoutLast_of_getLast?_ne
  intro last
  exact noReturn line member (getLast?_of_getLast?_encode last (by decide))

end LicenseSurvey.Text

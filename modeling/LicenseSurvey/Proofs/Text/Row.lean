import LicenseSurvey.Proofs.Text.Trim

/-! # Texts of several rows

A text is what its rows make when a line feed is put between them, and rows without a
line feed are the rows of what they make. A text begins as its first row does and ends as
its last row does, as long as no line feed is looked for.
-/

namespace LicenseSurvey.Text

def rows (text : Text) : List Text := splitBy (· == '\n') text

/-! ## Joined texts -/

section

variable {separator : Text} {texts : List Text}

theorem join_eq_intercalate (separator : Text) (texts : List Text) :
    join separator texts = separator.intercalate texts := by
  fun_induction join separator texts with
  | case1 => rfl
  | case2 text => rw [List.intercalate_singleton]
  | case3 text next rest induction =>
      rw [List.intercalate_cons_cons, induction]

theorem join_append {left right : List Text} (leftNotEmpty : left ≠ [])
    (rightNotEmpty : right ≠ []) :
    join separator (left ++ right) = join separator left ++ separator ++ join separator right := by
  fun_induction join separator left with
  | case1 => exact absurd rfl leftNotEmpty
  | case2 text =>
      obtain ⟨next, rest, rfl⟩ := List.exists_cons_of_ne_nil rightNotEmpty
      rfl
  | case3 text next rest induction =>
      rw [List.cons_append, List.cons_append, join, ← List.cons_append,
        induction (List.cons_ne_nil _ _)]
      simp only [List.append_assoc]

theorem join_cons {texts : List Text} (notEmpty : texts ≠ []) (text : Text) :
    join separator (text :: texts) = text ++ separator ++ join separator texts :=
  join_append (List.cons_ne_nil text []) notEmpty

theorem splitBy_join {separator : Char} (outside : ∀ text ∈ texts, separator ∉ text)
    (notEmpty : texts ≠ []) : splitBy (· == separator) (join [separator] texts) = texts := by
  rw [join_eq_intercalate, splitBy_eq_splitOnP]
  exact List.splitOn_intercalate separator outside notEmpty

theorem join_append_join (ahead : List Text) (last first : Text) (behind : List Text) :
    join separator (ahead ++ [last]) ++ join separator (first :: behind) =
      join separator (ahead ++ (last ++ first) :: behind) := by
  induction ahead with
  | nil =>
      cases behind with
      | nil => rfl
      | cons next rest =>
          rw [List.nil_append, List.nil_append, join, join_cons (List.cons_ne_nil next rest),
            join_cons (List.cons_ne_nil next rest)]
          simp only [List.append_assoc]
  | cons text ahead induction =>
      have some (texts : List Text) (text : Text) : ahead ++ text :: texts ≠ [] := by simp
      rw [List.cons_append, List.cons_append, join_cons (some [] last),
        join_cons (some behind _), List.append_assoc, induction]

theorem prefix_join (separator first : Text) (texts : List Text) :
    first <+: join separator (first :: texts) := by
  cases texts with
  | nil => exact List.prefix_rfl
  | cons next rest =>
      rw [join_cons (List.cons_ne_nil next rest), List.append_assoc]
      exact List.prefix_append first _

theorem suffix_join (separator last : Text) (texts : List Text) :
    last <:+ join separator (texts ++ [last]) := by
  cases texts with
  | nil => exact List.suffix_rfl
  | cons next rest =>
      rw [join_append (List.cons_ne_nil next rest) (List.cons_ne_nil last [])]
      exact List.suffix_append _ last

theorem forall_mem_join {Holds : Char → Prop} (between : ∀ character ∈ separator, Holds character) :
    (∀ character ∈ join separator texts, Holds character) ↔
      ∀ text ∈ texts, ∀ character ∈ text, Holds character := by
  fun_induction join separator texts with
  | case1 => simp
  | case2 text => rw [List.forall_mem_singleton]
  | case3 text next rest induction =>
      rw [List.forall_mem_append, List.forall_mem_append, and_iff_left between, induction]
      simp only [List.forall_mem_cons]

theorem notMem_join {character : Char} (outside : character ∉ separator)
    (inside : ∀ text ∈ texts, character ∉ text) : character ∉ join separator texts := by
  rw [← List.forall_mem_ne] at outside ⊢
  rw [forall_mem_join outside]
  exact fun text member => List.forall_mem_ne.mpr (inside text member)

theorem join_ne_nil {text : Text} (notEmpty : text ≠ []) (texts : List Text) :
    join separator (text :: texts) ≠ [] := by
  intro empty
  exact notEmpty (List.prefix_nil.mp (empty ▸ prefix_join separator text texts))

/-- Trimmed texts make a trimmed text unless one at the ends is empty. -/
theorem trim_join (trimmed : ∀ text ∈ texts, trim text = text) (first : texts.head? ≠ some [])
    (last : texts.getLast? ≠ some []) : trim (join separator texts) = join separator texts := by
  apply trim_eq_self
  · cases texts with
    | nil => simp [join]
    | cons text texts =>
        intro character front
        obtain ⟨rest, whole⟩ := prefix_join separator text texts
        rw [← whole, List.head?_append_of_ne_nil _ (by simpa using first)] at front
        exact not_isBlank_of_head? (trimmed text (List.mem_cons_self ..)) front
  · rcases List.eq_nil_or_concat texts with rfl | ⟨texts, text, rfl⟩
    · simp [join]
    · rw [List.concat_eq_append] at trimmed last ⊢
      intro character back
      obtain ⟨rest, whole⟩ := suffix_join separator text texts
      rw [← whole, List.getLast?_append_of_ne_nil _ (by simpa using last)] at back
      exact not_isBlank_of_getLast? (trimmed text (by simp)) back

end

structure IsWord (text : Text) : Prop where
  notEmpty : text ≠ []
  plain : ∀ character ∈ text, isBlank character = false

instance (text : Text) : Decidable text.IsWord :=
  decidable_of_iff (text ≠ [] ∧ text.all (!isBlank ·))
    ⟨fun ⟨notEmpty, plain⟩ => ⟨notEmpty, by simpa using plain⟩,
      fun ⟨notEmpty, plain⟩ => ⟨notEmpty, by simpa using plain⟩⟩

theorem IsWord.words_eq {text : Text} (word : text.IsWord) : words text = [text] := by
  rw [words, splitBy_of_not_isSeparator word.plain]
  simp [word.notEmpty]

theorem words_join {texts : List Text} (each : ∀ text ∈ texts, text.IsWord) :
    words (join [' '] texts) = texts := by
  induction texts with
  | nil => rfl
  | cons text texts induction =>
      obtain ⟨here, later⟩ := List.forall_mem_cons.mp each
      cases texts with
      | nil => exact here.words_eq
      | cons next rest =>
          have blank : isBlank ' ' = true := by decide
          rw [words] at induction
          rw [join_cons (List.cons_ne_nil next rest), List.append_assoc, List.singleton_append,
            words, splitBy_append blank, List.filter_append, induction later, ← words,
            here.words_eq, List.singleton_append]

/-! ## Rows -/

section

variable {row : Text}

theorem rows_ne_nil (text : Text) : rows text ≠ [] := splitBy_ne_nil _ text

theorem exists_rows_eq_concat (text : Text) : ∃ ahead last, rows text = ahead ++ [last] :=
  exists_splitBy_eq_concat _ text

theorem not_mem_of_mem_rows {text : Text} (member : row ∈ rows text) : '\n' ∉ row :=
  notMem_of_mem_splitBy member

theorem rows_append (left right : Text) : rows (left ++ '\n' :: right) = rows left ++ rows right :=
  @splitBy_append _ (· == '\n') '\n' rfl left right

theorem join_rows (text : Text) : join ['\n'] (rows text) = text := by
  rw [join_eq_intercalate, rows, splitBy_eq_splitOnP]
  exact List.intercalate_splitOn '\n'

theorem rows_join {written : List Text} (noFeed : ∀ row ∈ written, '\n' ∉ row)
    (notEmpty : written ≠ []) : rows (join ['\n'] written) = written :=
  splitBy_join noFeed notEmpty

theorem head?_rows_ne {text : Text} (notEmpty : text ≠ []) (trimmed : trim text = text) :
    (rows text).head? ≠ some [] := by
  intro empty
  have whole := join_rows text
  obtain ⟨further, split⟩ := List.head?_eq_some_iff.mp empty
  rw [split] at whole
  cases further with
  | nil => exact notEmpty whole.symm
  | cons next rest =>
      have feed : text.head? = some '\n' := by
        rw [← whole]
        rfl
      exact Bool.noConfusion (not_isBlank_of_head? trimmed feed)

theorem getLast?_rows_ne {text : Text} (notEmpty : text ≠ []) (trimmed : trim text = text) :
    (rows text).getLast? ≠ some [] := by
  intro empty
  have whole := join_rows text
  obtain ⟨ahead, split⟩ := List.getLast?_eq_some_iff.mp empty
  rw [split] at whole
  cases ahead with
  | nil => exact notEmpty whole.symm
  | cons first rest =>
      have feed : text.getLast? = some '\n' := by
        rw [← whole, join_append (List.cons_ne_nil first rest) (List.cons_ne_nil [] []), join,
          List.append_nil, List.getLast?_concat]
      exact Bool.noConfusion (not_isBlank_of_getLast? trimmed feed)

theorem rows_append_of_rows {left right last first : Text} {ahead behind : List Text}
    (front : rows left = ahead ++ [last]) (back : rows right = first :: behind) :
    rows (left ++ right) = ahead ++ (last ++ first) :: behind := by
  have inLeft : ∀ row ∈ ahead ++ [last], '\n' ∉ row := fun _ member =>
    not_mem_of_mem_rows (front ▸ member)
  have inRight : ∀ row ∈ first :: behind, '\n' ∉ row := fun _ member =>
    not_mem_of_mem_rows (back ▸ member)
  have noFeed : ∀ row ∈ ahead ++ (last ++ first) :: behind, '\n' ∉ row := by
    rw [List.forall_mem_append, List.forall_mem_singleton] at inLeft
    rw [List.forall_mem_cons] at inRight
    rw [List.forall_mem_append, List.forall_mem_cons, List.mem_append, not_or]
    exact ⟨inLeft.1, ⟨inLeft.2, inRight.1⟩, inRight.2⟩
  have whole : left ++ right = join ['\n'] (ahead ++ (last ++ first) :: behind) := by
    rw [← join_append_join, ← front, ← back, join_rows, join_rows]
  rw [whole, rows_join noFeed (by simp)]

/-- A part of a text has one row, or its first row and its last one are cut off from rows of
the text and the rows between them are rows of the text. -/
theorem rows_of_infix {part text : Text} (inside : part <:+: text) :
    rows part = [part] ∨ ∃ first inner last, rows part = first :: (inner ++ [last]) ∧
      (∃ row ∈ rows text, first <:+ row) ∧ (∀ row ∈ inner, row ∈ (rows text).tail) ∧
        ∃ row ∈ (rows text).tail, last <+: row := by
  obtain ⟨before, after, rfl⟩ := inside
  obtain ⟨first, further, split⟩ := List.exists_cons_of_ne_nil (rows_ne_nil part)
  rcases List.eq_nil_or_concat further with rfl | ⟨inner, last, rfl⟩
  · refine .inl ?_
    have whole := join_rows part
    rw [split] at whole
    rw [split, ← whole]
    rfl
  · rw [List.concat_eq_append, ← List.cons_append] at split
    obtain ⟨front, behind, rest⟩ := List.exists_cons_of_ne_nil (rows_ne_nil after)
    obtain ⟨ahead, back, begun⟩ := exists_rows_eq_concat before
    have ended : rows (part ++ after) = first :: (inner ++ (last ++ front) :: behind) :=
      rows_append_of_rows split rest
    have whole : rows (before ++ part ++ after) =
        ahead ++ (back ++ first) :: (inner ++ (last ++ front) :: behind) := by
      rw [List.append_assoc]
      exact rows_append_of_rows begun ended
    have later : ∀ row ∈ inner ++ (last ++ front) :: behind,
        row ∈ (rows (before ++ part ++ after)).tail := by
      intro row member
      rw [whole]
      cases ahead with
      | nil => exact member
      | cons row ahead => exact List.mem_append_right ahead (List.mem_cons_of_mem _ member)
    refine .inr ⟨first, inner, last, split, ⟨back ++ first, ?_, List.suffix_append back first⟩,
      ?_, last ++ front, ?_, List.prefix_append last front⟩
    · rw [whole]
      exact List.mem_append_right ahead (List.mem_cons_self ..)
    · exact fun row member => later row (List.mem_append_left _ member)
    · exact later _ (List.mem_append_right inner (List.mem_cons_self ..))

theorem bne_feed_of_mem (noFeed : '\n' ∉ row) : ∀ character ∈ row, (character != '\n') = true := by
  intro character member
  rw [bne_iff_ne]
  rintro rfl
  exact noFeed member

theorem takeWhile_join (noFeed : '\n' ∉ row) (further : List Text) :
    (join ['\n'] (row :: further)).takeWhile (· != '\n') = row := by
  cases further with
  | nil =>
      rw [join, List.takeWhile_eq_self_iff]
      exact bne_feed_of_mem noFeed
  | cons next rest =>
      rw [join_cons (List.cons_ne_nil next rest), List.append_assoc,
        List.takeWhile_append_of_pos (bne_feed_of_mem noFeed)]
      simp

theorem dropWhile_join (noFeed : '\n' ∉ row) (further : List Text) :
    ((join ['\n'] (row :: further)).dropWhile (· != '\n')).drop 1 = join ['\n'] further := by
  cases further with
  | nil =>
      have single : join ['\n'] [row] = row := rfl
      rw [single, List.dropWhile_eq_nil_iff.mpr (bne_feed_of_mem noFeed)]
      rfl
  | cons next rest =>
      rw [join_cons (List.cons_ne_nil next rest), List.append_assoc,
        List.dropWhile_append_of_pos (bne_feed_of_mem noFeed)]
      simp

theorem prefix_join_iff {front : Text} (noFeed : '\n' ∉ front) (further : List Text) :
    front <+: join ['\n'] (row :: further) ↔ front <+: row := by
  constructor
  · cases further with
    | nil => exact id
    | cons next rest =>
        intro starts
        have begun : row ++ ['\n'] <+: join ['\n'] (row :: next :: rest) := by
          rw [join_cons (List.cons_ne_nil next rest)]
          exact List.prefix_append _ _
        rcases List.prefix_or_prefix_of_prefix starts begun with short | long
        · rcases List.prefix_concat_iff.mp short with whole | short
          · exact absurd (whole ▸ List.mem_append_right row (List.mem_singleton_self '\n')) noFeed
          · exact short
        · exact absurd (long.subset (List.mem_append_right row (List.mem_singleton_self '\n')))
            noFeed
  · intro starts
    exact starts.trans (prefix_join ['\n'] row further)

theorem suffix_join_iff {back : Text} (noFeed : '\n' ∉ back) (ahead : List Text) :
    back <:+ join ['\n'] (ahead ++ [row]) ↔ back <:+ row := by
  constructor
  · cases ahead with
    | nil => exact id
    | cons first rest =>
        intro ends
        have ended : '\n' :: row <:+ join ['\n'] (first :: rest ++ [row]) := by
          rw [join_append (List.cons_ne_nil first rest) (List.cons_ne_nil row []),
            List.append_assoc]
          exact List.suffix_append _ _
        rcases List.suffix_or_suffix_of_suffix ends ended with short | long
        · rcases List.suffix_cons_iff.mp short with whole | short
          · exact absurd (whole ▸ List.mem_cons_self ..) noFeed
          · exact short
        · exact absurd (long.subset (List.mem_cons_self ..)) noFeed
  · intro ends
    exact ends.trans (suffix_join ['\n'] row ahead)

end

end LicenseSurvey.Text

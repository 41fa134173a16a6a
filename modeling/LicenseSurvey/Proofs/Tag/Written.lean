import LicenseSurvey.Proofs.Tag.Field

/-! # Tags as they are written

A tag is written with the name of its key, a colon and its value; a marker is its name
alone. A formatted text stands between markup, a list has one element in each line, and
words share one line. Written so, a tag begins with its own key and has no other one in its
further lines, whatever stands in the first.
-/

namespace LicenseSurvey

open Text (join rows)

variable {Label : Type} {keys : List (Key Label)} {key : Key Label} {value : Value} {text : Text}

/-! ## Values -/

structure Text.IsFormatted (keys : List (Key Label)) (text : Text) : Prop where
  notEmpty : text ≠ []
  trimmed : ∀ row ∈ rows text, trim row = row
  first : (rows text).head? ≠ some []
  last : (rows text).getLast? ≠ some []
  silent : ∀ row ∈ (rows text).tail, Key.find? keys row = none

inductive Value.Suits (keys : List (Key Label)) : Shape → Value → Prop where
  | line {text : Text} (isRow : text.IsRow) : Suits keys .line (.text text)
  | formatted {text : Text} (isFormatted : text.IsFormatted keys) :
      Suits keys .formatted (.text text)
  | lines {elements : List Text} (notEmpty : elements ≠ [])
      (isRow : ∀ element ∈ elements, element.IsRow)
      (silent : ∀ element ∈ elements.tail, Key.find? keys element = none) :
      Suits keys .lines (.list elements)
  | words {elements : List Text} (notEmpty : elements ≠ [])
      (isWord : ∀ element ∈ elements, element.IsWord) : Suits keys .words (.list elements)
  | marker : Suits keys .marker (.text [])

def Tag.IsWellFormed (keys : List (Key Label)) (tag : Tag Label) : Prop :=
  ∃ key ∈ keys, key.label = tag.label ∧ tag.value.Suits keys key.shape

/-! ## Lines -/

def Text.wrapped (text : Text) : Text := "<text>".toList ++ (text ++ "</text>".toList)

def Value.rows (shape : Shape) (value : Value) : List Text :=
  match shape with
  | .line => [value.asText]
  | .formatted => Text.rows (Text.wrapped value.asText)
  | .lines => value.asList
  | .words => [join [' '] value.asList]
  | .marker => []

def Key.write (key : Key Label) (value : Value) : List Text :=
  match value.rows key.shape with
  | [] => [key.name]
  | first :: further => (key.name ++ ':' :: ' ' :: first) :: further

def Tag.write [DecidableEq Label] (keys : List (Key Label)) (tags : List (Tag Label)) :
    List Text :=
  tags.flatMap fun tag =>
    ((keys.find? fun key => key.label = tag.label).map fun key => key.write tag.value).getD []

/-- A table whose keys are recognised where they are written, by their names and by their
labels, and not in the markup or across it. -/
structure Key.AreDistinct [DecidableEq Label] (keys : List (Key Label)) : Prop where
  find?_name : ∀ key ∈ keys, key.shape ≠ .marker → ∀ rest,
    Key.find? keys (key.name ++ ':' :: rest) = some ⟨key, [], rest⟩
  find?_marker : ∀ key ∈ keys, key.shape = .marker →
    Key.find? keys key.name = some ⟨key, [], []⟩
  find?_label : ∀ key ∈ keys, (keys.find? fun other => other.label = key.label) = some key
  isForeign : ∀ key ∈ keys, key.IsForeign '<'
  find?_closing : Key.find? keys "</text>".toList = none

/-! ## Wrapped texts -/

namespace Text

theorem wrapped_ne_nil (text : Text) : wrapped text ≠ [] :=
  List.append_ne_nil_of_left_ne_nil (by decide) _

theorem trim_wrapped (notEmpty : text ≠ []) (trimmed : trim text = text) :
    trim (wrapped text) = wrapped text := by
  have closed := trim_append notEmpty (by decide) trimmed (by decide : trim "</text>".toList = _)
  exact trim_append (by decide) (by simp [notEmpty]) (by decide) closed

theorem rows_wrapped {ahead : List Text} {last : Text} (split : rows text = ahead ++ [last]) :
    rows (wrapped text) =
      match ahead with
      | [] => [wrapped last]
      | first :: inner => ("<text>".toList ++ first) :: (inner ++ [last ++ "</text>".toList]) := by
  have back : rows (text ++ "</text>".toList) = ahead ++ [last ++ "</text>".toList] :=
    rows_append_of_rows split rfl
  have front {first : Text} {further : List Text}
      (rest : rows (text ++ "</text>".toList) = first :: further) :
      rows (wrapped text) = ("<text>".toList ++ first) :: further :=
    @rows_append_of_rows _ _ _ _ [] _ rfl rest
  cases ahead with
  | nil => exact front back
  | cons first inner => exact front back

end Text

theorem Segment.unwrapped_wrapped (notEmpty : text ≠ []) (trimmed : Text.trim text = text) :
    unwrapped (Text.wrapped text) = text := by
  have opened : Text.withoutFront "<text>".toList (Text.wrapped text) =
      text ++ "</text>".toList := Text.withoutFront_append _ _
  rw [unwrapped, Text.trim_wrapped notEmpty trimmed, opened, Text.withoutBack_append, trimmed]

namespace Text.IsFormatted

theorem trim_eq (isFormatted : text.IsFormatted keys) : trim text = text := by
  have whole : trim (join ['\n'] (Text.rows text)) = join ['\n'] (Text.rows text) :=
    trim_join isFormatted.trimmed isFormatted.first isFormatted.last
  rwa [join_rows] at whole

/-- A formatted text between markup fills its first row, and its further rows are without a
key. -/
theorem exists_rows_wrapped [DecidableEq Label] (distinct : Key.AreDistinct keys)
    (isFormatted : text.IsFormatted keys) :
    ∃ first further, Text.rows (wrapped text) = first :: further ∧ first ≠ [] ∧
      (∀ row ∈ first :: further, trim row = row) ∧
        ∀ row ∈ further, Key.find? keys row = none := by
  obtain ⟨ahead, last, split⟩ := exists_rows_eq_concat text
  have trimmed := isFormatted.trimmed
  have someFirst := isFormatted.first
  have someLast := isFormatted.last
  have silent := isFormatted.silent
  rw [split] at trimmed someFirst someLast silent
  obtain ⟨front, back⟩ := List.forall_mem_append.mp trimmed
  rw [List.forall_mem_singleton] at back
  have lastNotEmpty : last ≠ [] := by
    rintro rfl
    exact someLast List.getLast?_concat
  have wrapped_rows := rows_wrapped split
  cases ahead with
  | nil =>
      refine ⟨wrapped last, [], wrapped_rows, wrapped_ne_nil last, ?_, by simp⟩
      rw [List.forall_mem_singleton]
      exact trim_wrapped lastNotEmpty back
  | cons first inner =>
      obtain ⟨here, between⟩ := List.forall_mem_cons.mp front
      have firstNotEmpty : first ≠ [] := by
        rintro rfl
        exact someFirst rfl
      obtain ⟨quiet, quietLast⟩ := List.forall_mem_append.mp silent
      rw [List.forall_mem_singleton] at quietLast
      refine ⟨_, _, wrapped_rows, by simp, ?_, ?_⟩
      · rw [List.forall_mem_cons, List.forall_mem_append, List.forall_mem_singleton]
        exact ⟨trim_append (by decide) firstNotEmpty (by decide) here, between,
          trim_append lastNotEmpty (by decide) back (by decide)⟩
      · rw [List.forall_mem_append, List.forall_mem_singleton]
        have slash : Key.find? keys "/text>".toList = none :=
          Key.find?_eq_none_of_infix (List.infix_cons List.infix_rfl) distinct.find?_closing
        exact ⟨quiet, Key.find?_append_cons distinct.isForeign quietLast slash⟩

end Text.IsFormatted

/-! ## Reading what is written -/

theorem Tag.ofRows?_of_wrapped [DecidableEq Label] (distinct : Key.AreDistinct keys)
    (shape : key.shape = .formatted) (isFormatted : text.IsFormatted keys) :
    ofRows? key (rows (Text.wrapped text)) = some ⟨key.label, .text text⟩ := by
  obtain ⟨first, further, split, notEmpty, trimmed, -⟩ :=
    isFormatted.exists_rows_wrapped distinct
  have whole : join ['\n'] (first :: further) = Text.wrapped text := by
    rw [← split, Text.join_rows]
  simp only [split, ofRows?, Segment.tag?, Segment.value?, shape,
    Segment.trimmedLines_eq notEmpty trimmed, whole,
    Segment.unwrapped_wrapped isFormatted.notEmpty isFormatted.trim_eq, Segment.nonemptyText?,
    isFormatted.notEmpty, if_false, Option.map_some]

namespace KeyedLines

theorem exists_of_rows [DecidableEq Label] (distinct : Key.AreDistinct keys) (known : key ∈ keys)
    (named : key.shape ≠ .marker) (written : value.rows key.shape ≠ [])
    (silent : ∀ row ∈ (value.rows key.shape).tail, Key.find? keys row = none) :
    ∃ part : KeyedLines keys, part.lines = key.write value ∧
      part.segment.tag? = Tag.ofRows? key (value.rows key.shape) := by
  obtain ⟨first, further, split⟩ := List.exists_cons_of_ne_nil written
  rw [split] at silent
  have present := distinct.find?_name key known named (' ' :: first)
  refine ⟨⟨_, _, further, present, silent⟩, ?_, ?_⟩
  · rw [Key.write, split]
    rfl
  · rw [split, ← Segment.tag?_indented]
    rfl

theorem exists_of_suits [DecidableEq Label] (distinct : Key.AreDistinct keys) (known : key ∈ keys)
    (suits : value.Suits keys key.shape) :
    ∃ part : KeyedLines keys, part.lines = key.write value ∧
      part.segment.tag? = some ⟨key.label, value⟩ := by
  have ofRows (named : key.shape ≠ .marker) (written : value.rows key.shape ≠ [])
      (silent : ∀ row ∈ (value.rows key.shape).tail, Key.find? keys row = none)
      (read : Tag.ofRows? key (value.rows key.shape) = some ⟨key.label, value⟩) :
      ∃ part : KeyedLines keys, part.lines = key.write value ∧
        part.segment.tag? = some ⟨key.label, value⟩ := by
    rw [← read]
    exact exists_of_rows distinct known named written silent
  cases shape : key.shape with
  | line =>
      rw [shape] at suits ofRows
      obtain ⟨isRow⟩ := suits
      exact ofRows nofun (List.cons_ne_nil _ _) (by simp [Value.rows])
        (Tag.ofRows?_of_line shape isRow)
  | formatted =>
      rw [shape] at suits ofRows
      obtain - | ⟨isFormatted⟩ := suits
      obtain ⟨first, further, split, -, -, silent⟩ := isFormatted.exists_rows_wrapped distinct
      exact ofRows nofun (Text.rows_ne_nil _) (by simpa [Value.rows, Value.asText, split])
        (Tag.ofRows?_of_wrapped distinct shape isFormatted)
  | lines =>
      rw [shape] at suits ofRows
      obtain - | - | ⟨notEmpty, isRow, silent⟩ := suits
      exact ofRows nofun notEmpty silent (Tag.ofRows?_of_lines shape isRow notEmpty)
  | words =>
      rw [shape] at suits ofRows
      obtain - | - | - | ⟨notEmpty, isWord⟩ := suits
      rename_i elements
      have words : Text.words (join [' '] elements) = elements := Text.words_join isWord
      have read : Tag.ofRows? key [join [' '] elements] =
          some ⟨key.label, .list (Text.words (join [' '] elements))⟩ :=
        Tag.ofRows?_of_words shape (words.symm ▸ notEmpty)
      rw [words] at read
      exact ofRows nofun (List.cons_ne_nil _ _) (by simp [Value.rows]) read
  | marker =>
      rw [shape] at suits
      cases suits
      refine ⟨⟨_, _, [], distinct.find?_marker key known shape, by simp⟩, ?_, ?_⟩
      · simp [lines, Key.write, Value.rows, shape]
      · simp [segment, Segment.tag?, Segment.value?, shape]

end KeyedLines

/-- Tags that are written one after the other are segments, and each segment makes its tag. -/
theorem Tag.exists_keyedLines_write [DecidableEq Label] (distinct : Key.AreDistinct keys)
    {tags : List (Tag Label)} (wellFormed : ∀ tag ∈ tags, tag.IsWellFormed keys) :
    ∃ parts : List (KeyedLines keys), write keys tags = parts.flatMap KeyedLines.lines ∧
      (parts.flatMap fun part => part.segment.tag?.toList) = tags := by
  induction tags with
  | nil => exact ⟨[], rfl, rfl⟩
  | cons tag tags induction =>
      obtain ⟨here, later⟩ := List.forall_mem_cons.mp wellFormed
      obtain ⟨parts, lines, made⟩ := induction later
      obtain ⟨key, known, labelled, suits⟩ := here
      obtain ⟨part, written, read⟩ := KeyedLines.exists_of_suits distinct known suits
      have found := distinct.find?_label key known
      refine ⟨part :: parts, ?_, ?_⟩
      · rw [write] at lines
        rw [write, List.flatMap_cons, List.flatMap_cons, lines, ← labelled, found, written]
        rfl
      · rw [List.flatMap_cons, made, read, labelled]
        rfl

theorem Tag.ofLines_write [DecidableEq Label] (distinct : Key.AreDistinct keys)
    {tags : List (Tag Label)} (wellFormed : ∀ tag ∈ tags, tag.IsWellFormed keys) :
    ofLines keys (write keys tags) = tags := by
  obtain ⟨parts, lines, made⟩ := exists_keyedLines_write distinct wellFormed
  rw [lines, KeyedLines.ofLines_flatMap]
  simp only [ofLines_keyedLines, made]

end LicenseSurvey

import LicenseSurvey.Manifest.Basic
import LicenseSurvey.Proofs.Tag.Written

/-! # Tags written and read again

Every tag that is read from lines has a value that its key can have, so it can be written,
and then it is read again as it is. Both tables of keys are such that this goes for all
tags of theirs, in any order.
-/

namespace LicenseSurvey

open Text (join)

variable {Label : Type} {keys : List (Key Label)} {text : Text}

/-! ## The values that are read -/

namespace Text

theorem isWord_of_mem_words {word : Text} (member : word ∈ words text) : word.IsWord := by
  obtain ⟨among, full⟩ := List.mem_filter.mp member
  refine ⟨by simpa using full, ?_⟩
  exact fun character inside => not_isSeparator_of_mem_splitBy among inside

theorem isRow_trim (notEmpty : trim text ≠ []) (noFeed : '\n' ∉ text) : (trim text).IsRow where
  notEmpty := notEmpty
  trimmed := trim_trim text
  noFeed := fun feed => noFeed ((isInfix_trim text).subset feed)

/-- A trimmed part of joined rows is formatted when the rows are trimmed and only the first
of them may hold a key. -/
theorem isFormatted_of_isInfix {rows : List Text} (noFeed : ∀ row ∈ rows, '\n' ∉ row)
    (each : ∀ row ∈ rows, trim row = row) (silent : ∀ row ∈ rows.tail, Key.find? keys row = none)
    (inside : text <:+: join ['\n'] rows) (notEmpty : text ≠ []) (trimmed : trim text = text) :
    text.IsFormatted keys := by
  have someRow : rows ≠ [] := by
    rintro rfl
    exact notEmpty (List.infix_nil.mp inside)
  have head := head?_rows_ne notEmpty trimmed
  have final := getLast?_rows_ne notEmpty trimmed
  have parts := rows_of_infix inside
  rw [rows_join noFeed someRow] at parts
  rcases parts with single | ⟨first, inner, last, split, ⟨whole, among, begins⟩, between,
    ⟨other, later, ends⟩⟩
  · refine ⟨notEmpty, ?_, head, final, ?_⟩
    · rw [single, List.forall_mem_singleton]
      exact trimmed
    · simp [single]
  · have joined := join_rows text
    rw [split] at joined
    have front : first <+: text := joined ▸ prefix_join ['\n'] first (inner ++ [last])
    have back : last <:+ text := joined ▸ suffix_join ['\n'] last (first :: inner)
    refine ⟨notEmpty, ?_, head, final, ?_⟩
    · rw [split, List.forall_mem_cons, List.forall_mem_append, List.forall_mem_singleton]
      refine ⟨?_, ?_, ?_⟩
      · exact trim_eq_self_of_ends front trimmed begins (each whole among)
      · exact fun row member => each row (List.mem_of_mem_tail (between row member))
      · exact trim_eq_self_of_ends ends (each other (List.mem_of_mem_tail later)) back trimmed
    · rw [split, List.tail_cons, List.forall_mem_append, List.forall_mem_singleton]
      refine ⟨fun row member => silent row (between row member), ?_⟩
      exact Key.find?_eq_none_of_infix ends.isInfix (silent other later)

end Text

namespace Segment

theorem mem_trimmedLines {segment : Segment Label} {line : Text}
    (member : line ∈ segment.trimmedLines) :
    ∃ whole ∈ segment.rest :: segment.further, line = Text.trim whole := by
  rcases List.mem_append.mp member with first | later
  · split at first
    · exact absurd first List.not_mem_nil
    · exact ⟨segment.rest, List.mem_cons_self .., List.mem_singleton.mp first⟩
  · obtain ⟨whole, among, rfl⟩ := List.mem_map.mp later
    exact ⟨whole, List.mem_cons_of_mem _ among, rfl⟩

theorem mem_tail_trimmedLines {segment : Segment Label} {line : Text}
    (member : line ∈ segment.trimmedLines.tail) :
    ∃ whole ∈ segment.further, line = Text.trim whole := by
  have later : line ∈ segment.further.map Text.trim := by
    rw [trimmedLines] at member
    split at member
    · exact List.mem_of_mem_tail member
    · exact member
  obtain ⟨whole, among, rfl⟩ := List.mem_map.mp later
  exact ⟨whole, among, rfl⟩

theorem isInfix_unwrapped (text : Text) : unwrapped text <:+: text := by
  rw [unwrapped]
  refine (Text.isInfix_trim _).trans ?_
  refine (Text.isPrefix_withoutBack _ _).isInfix.trans ?_
  exact (Text.isSuffix_withoutFront _ _).isInfix.trans (Text.isInfix_trim text)

theorem nonemptyText?_eq_some_iff {value : Value} :
    nonemptyText? text = some value ↔ text ≠ [] ∧ value = .text text := by
  by_cases empty : text = [] <;> simp [nonemptyText?, empty, eq_comm]

theorem nonemptyList?_eq_some_iff {elements : List Text} {value : Value} :
    nonemptyList? elements = some value ↔ elements ≠ [] ∧ value = .list elements := by
  by_cases empty : elements = [] <;> simp [nonemptyList?, empty, eq_comm]

theorem suits_of_value? {segment : Segment Label} {value : Value}
    (noFeed : ∀ line ∈ segment.rest :: segment.further, '\n' ∉ line)
    (silent : ∀ line ∈ segment.further, Key.find? keys line = none)
    (made : segment.value? = some value) : value.Suits keys segment.key.shape := by
  have isRow : ∀ line ∈ segment.trimmedLines, line ≠ [] → line.IsRow := by
    intro line member notEmpty
    obtain ⟨whole, among, rfl⟩ := mem_trimmedLines member
    exact Text.isRow_trim notEmpty (noFeed whole among)
  have silentTail : ∀ line ∈ segment.trimmedLines.tail, Key.find? keys line = none := by
    intro line member
    obtain ⟨whole, among, rfl⟩ := mem_tail_trimmedLines member
    exact Key.find?_eq_none_of_infix (Text.isInfix_trim whole) (silent whole among)
  rw [value?] at made
  cases shape : segment.key.shape <;> simp only [shape] at made
  case line =>
    obtain ⟨notEmpty, rfl⟩ := nonemptyText?_eq_some_iff.mp made
    exact .line (Text.isRow_trim notEmpty (noFeed _ (List.mem_cons_self ..)))
  case formatted =>
    obtain ⟨notEmpty, rfl⟩ := nonemptyText?_eq_some_iff.mp made
    refine .formatted (Text.isFormatted_of_isInfix ?_ ?_ silentTail (isInfix_unwrapped _) notEmpty
      (Text.trim_trim _))
    · intro line member
      obtain ⟨whole, among, rfl⟩ := mem_trimmedLines member
      exact fun feed => noFeed whole among ((Text.isInfix_trim whole).subset feed)
    · intro line member
      obtain ⟨whole, among, rfl⟩ := mem_trimmedLines member
      exact Text.trim_trim whole
  case lines =>
    obtain ⟨notEmpty, rfl⟩ := nonemptyList?_eq_some_iff.mp made
    refine .lines notEmpty ?_ ?_
    · intro line member
      obtain ⟨among, full⟩ := List.mem_filter.mp member
      exact isRow line among (by simpa using full)
    · intro line member
      have later := List.filter_sublist.tail.subset member
      exact silentTail line later
  case words =>
    obtain ⟨notEmpty, rfl⟩ := nonemptyList?_eq_some_iff.mp made
    refine .words notEmpty fun word member => ?_
    obtain ⟨line, -, among⟩ := List.mem_flatMap.mp member
    exact Text.isWord_of_mem_words among
  case marker =>
    obtain rfl := Option.some.inj made
    exact .marker

end Segment

theorem Tag.isWellFormed_of_mem_ofLines {lines : List Text}
    (noFeed : ∀ line ∈ lines, '\n' ∉ line) {tag : Tag Label}
    (member : tag ∈ Tag.ofLines keys lines) : tag.IsWellFormed keys := by
  obtain ⟨part, among, inside⟩ := Tag.exists_keyedLines_of_mem_ofLines member
  obtain ⟨value, made, rfl⟩ := Option.map_eq_some_iff.mp inside
  have noFeedHere : ∀ line ∈ part.lines, '\n' ∉ line := fun line inPart =>
    noFeed line (among inPart)
  obtain ⟨here, later⟩ := List.forall_mem_cons.mp noFeedHere
  have after : '\n' ∉ part.found.after := fun feed =>
    here ((Key.after_suffix_of_find? part.present).subset feed)
  exact ⟨part.found.key, Key.mem_of_find? part.present, rfl,
    Segment.suits_of_value? (List.forall_mem_cons.mpr ⟨after, later⟩) part.silent made⟩

/-! ## The two tables -/

theorem areDistinct_licensingKeys : Key.AreDistinct licensingKeys where
  find?_name := by
    intro key known named rest
    simp only [licensingKeys, List.mem_cons, List.not_mem_nil, or_false] at known
    rcases known with rfl | rfl | rfl | rfl | rfl | rfl | rfl | rfl | rfl | rfl | rfl
    all_goals first | exact absurd rfl named | rfl
  find?_marker := by decide
  find?_label := by decide
  isForeign := by decide
  find?_closing := by decide

theorem areDistinct_manifestKeys : Key.AreDistinct manifestKeys where
  find?_name := by
    intro key known _ rest
    simp only [manifestKeys, List.mem_cons, List.not_mem_nil, or_false] at known
    rcases known with rfl | rfl | rfl | rfl | rfl | rfl | rfl | rfl | rfl <;> rfl
  find?_marker := by decide
  find?_label := by decide
  isForeign := by decide
  find?_closing := by decide

/-- Tags come back from their lines, and lines give tags that can be written. -/
structure Tag.ReadsBack [DecidableEq Label] (keys : List (Key Label)) : Prop where
  ofLines_write : ∀ tags : List (Tag Label), (∀ tag ∈ tags, tag.IsWellFormed keys) →
    ofLines keys (write keys tags) = tags
  isWellFormed : ∀ lines : List Text, (∀ line ∈ lines, '\n' ∉ line) →
    ∀ tag ∈ ofLines keys lines, tag.IsWellFormed keys
  ofLines_write_ofLines : ∀ lines : List Text, (∀ line ∈ lines, '\n' ∉ line) →
    ofLines keys (write keys (ofLines keys lines)) = ofLines keys lines

theorem Key.AreDistinct.readsBack [DecidableEq Label] (distinct : Key.AreDistinct keys) :
    Tag.ReadsBack keys where
  ofLines_write := fun _ wellFormed => Tag.ofLines_write distinct wellFormed
  isWellFormed := fun _ noFeed _ member => Tag.isWellFormed_of_mem_ofLines noFeed member
  ofLines_write_ofLines := fun _ noFeed =>
    Tag.ofLines_write distinct fun _ member => Tag.isWellFormed_of_mem_ofLines noFeed member

/-- Licensing tags and the fields of manifests are written and read again. -/
theorem Tag.readsBack_of_both_tables :
    Tag.ReadsBack licensingKeys ∧ Tag.ReadsBack manifestKeys :=
  ⟨areDistinct_licensingKeys.readsBack, areDistinct_manifestKeys.readsBack⟩

/-- Values may hold keys in their first lines, markup of their own and empty lines. -/
theorem Tag.readsBack_of_values_with_keys :
    let tags : List LicensingTag :=
      [⟨.comment, .text "SPDX-FileType: x\n\n</text>".toList⟩, ⟨.ignoreStart, .text []⟩,
        ⟨.fileType, .list ["REUSE-IgnoreEnd".toList, "TEXT".toList]⟩,
        ⟨.contributor, .list ["SPDX-FileNotice: y".toList, "Bob".toList]⟩]
    (∀ tag ∈ tags, tag.IsWellFormed licensingKeys) ∧
      Tag.write licensingKeys tags = ["SPDX-FileComment: <text>SPDX-FileType: x", "",
        "</text></text>", "REUSE-IgnoreStart", "SPDX-FileType: REUSE-IgnoreEnd TEXT",
        "SPDX-FileContributor: SPDX-FileNotice: y", "Bob"].map String.toList ∧
      Tag.ofLines licensingKeys (Tag.write licensingKeys tags) = tags := by
  intro tags
  have wellFormed : ∀ tag ∈ tags, tag.IsWellFormed licensingKeys := by
    simp only [tags, List.forall_mem_cons]
    refine ⟨?_, ?_, ?_, ?_, by simp⟩
    · exact ⟨.row "SPDX-FileComment" .comment .formatted, by decide, rfl,
        .formatted ⟨by decide, by decide, by decide, by decide, by decide⟩⟩
    · exact ⟨.row "REUSE-IgnoreStart" .ignoreStart .marker, by decide, rfl, .marker⟩
    · exact ⟨.row "SPDX-FileType" .fileType .words, by decide, rfl, .words (by decide) (by decide)⟩
    · exact ⟨.row "SPDX-FileContributor" .contributor .lines, by decide, rfl,
        .lines (by decide) (by decide) (by decide)⟩
  exact ⟨wellFormed, by decide, Tag.readsBack_of_both_tables.1.ofLines_write tags wellFormed⟩

end LicenseSurvey

import LicenseSurvey.Proofs.Tag.Reader
import LicenseSurvey.Tag.Licensing

/-! # Lines in segments

Lines fall into a preamble without a key and segments, each a line with a key and the lines
without a key behind it. The preamble makes no tag and each segment at most one, which
depends on no line outside the segment.
-/

namespace LicenseSurvey

variable {Label : Type} {keys : List (Key Label)}

structure KeyedLines (keys : List (Key Label)) where
  line : Text
  found : Key.Occurrence Label
  further : List Text
  present : Key.find? keys line = some found
  silent : ∀ later ∈ further, Key.find? keys later = none

namespace KeyedLines

def lines (part : KeyedLines keys) : List Text := part.line :: part.further

def segment (part : KeyedLines keys) : Segment Label :=
  ⟨part.found.key, part.found.after, part.further⟩

end KeyedLines

/-- A segment has nothing for the value of its key. A marker has no value at all. -/
def Segment.IsValueless (segment : Segment Label) : Prop :=
  match segment.key.shape with
  | .line => Text.trim segment.rest = []
  | .formatted => Segment.unwrapped (Text.join ['\n'] segment.trimmedLines) = []
  | .lines | .words => ∀ line ∈ segment.rest :: segment.further, Text.trim line = []
  | .marker => True

/-! ## The tag of a segment -/

namespace Text

theorem words_eq_nil_iff {text : Text} : words text = [] ↔ trim text = [] := by
  rw [trim_eq_nil_iff, words, List.filter_eq_nil_iff]
  constructor
  · intro empty character member
    by_contra plain
    rw [Bool.not_eq_true] at plain
    obtain ⟨piece, among, inside⟩ := exists_mem_splitBy isBlank member plain
    have nothing := empty piece among
    cases piece with
    | nil => exact List.not_mem_nil inside
    | cons first rest => simp at nothing
  · intro blank piece among full
    cases piece with
    | nil => simp at full
    | cons first rest =>
        have plain := not_isSeparator_of_mem_splitBy among (List.mem_cons_self ..)
        have member := mem_of_mem_splitBy among (List.mem_cons_self ..)
        exact Bool.noConfusion (plain.symm.trans (blank first member))

end Text

namespace Segment

theorem nonemptyText?_eq_none_iff {text : Text} : nonemptyText? text = none ↔ text = [] := by
  by_cases empty : text = [] <;> simp [nonemptyText?, empty]

theorem nonemptyList?_eq_none_iff {elements : List Text} :
    nonemptyList? elements = none ↔ elements = [] := by
  by_cases empty : elements = [] <;> simp [nonemptyList?, empty]

theorem filter_trimmedLines_eq_nil_iff {segment : Segment Label} :
    segment.trimmedLines.filter (!·.isEmpty) = [] ↔
      ∀ line ∈ segment.rest :: segment.further, Text.trim line = [] := by
  by_cases empty : Text.trim segment.rest = [] <;>
    simp [trimmedLines, empty, List.filter_eq_nil_iff]

/-- A segment makes no tag exactly when its key needs a value and has none. -/
theorem tag?_eq_none_iff {segment : Segment Label} :
    segment.tag? = none ↔ segment.key.shape ≠ .marker ∧ segment.IsValueless := by
  rw [tag?, Option.map_eq_none_iff, value?, IsValueless]
  cases segment.key.shape with
  | line => simp [nonemptyText?_eq_none_iff]
  | formatted => simp [nonemptyText?_eq_none_iff]
  | lines =>
      rw [nonemptyList?_eq_none_iff, filter_trimmedLines_eq_nil_iff]
      simp
  | words =>
      rw [nonemptyList?_eq_none_iff, List.flatMap_eq_nil_iff]
      simp [Text.words_eq_nil_iff]
  | marker => simp

theorem label_of_mem_tag? {segment : Segment Label} {tag : Tag Label}
    (member : tag ∈ segment.tag?) : tag.label = segment.key.label := by
  obtain ⟨value, -, rfl⟩ := Option.map_eq_some_iff.mp member
  rfl

end Segment

/-! ## Cutting lines -/

namespace Tag

theorem ofLines_of_silent {lines : List Text}
    (silent : ∀ line ∈ lines, Key.find? keys line = none) : ofLines keys lines = [] := by
  induction lines with
  | nil => rfl
  | cons line lines induction =>
      obtain ⟨here, later⟩ := List.forall_mem_cons.mp silent
      rw [ofLines_cons_of_none here, induction later]

theorem ofLines_keyedLines (part : KeyedLines keys) :
    ofLines keys part.lines = part.segment.tag?.toList := by
  have whole : (part.further.takeWhile fun later => (Key.find? keys later).isNone) =
      part.further := by
    rw [List.takeWhile_eq_self_iff]
    intro later member
    rw [part.silent later member, Option.isNone_none]
  rw [KeyedLines.lines, ofLines_cons_of_some part.present, whole, ofLines_of_silent part.silent,
    List.append_nil, KeyedLines.segment]

end Tag

namespace KeyedLines

theorem find?_head?_flatMap (parts : List (KeyedLines keys)) :
    ∀ line ∈ (parts.flatMap lines).head?, Key.find? keys line ≠ none := by
  cases parts with
  | nil => simp
  | cons part parts =>
      rintro line ⟨⟩
      rw [part.present]
      exact Option.some_ne_none _

theorem ofLines_flatMap (parts : List (KeyedLines keys)) :
    Tag.ofLines keys (parts.flatMap lines) =
      parts.flatMap fun part => Tag.ofLines keys part.lines := by
  induction parts with
  | nil => rfl
  | cons part parts induction =>
      rw [List.flatMap_cons, Tag.ofLines_append (find?_head?_flatMap parts), induction,
        List.flatMap_cons]

theorem exists_partition (keys : List (Key Label)) (lines : List Text) :
    ∃ preamble, ∃ parts : List (KeyedLines keys),
      lines = preamble ++ parts.flatMap KeyedLines.lines ∧
        ∀ line ∈ preamble, Key.find? keys line = none := by
  induction lines with
  | nil => exact ⟨[], [], rfl, by simp⟩
  | cons line lines induction =>
      obtain ⟨preamble, parts, split, silent⟩ := induction
      cases read : Key.find? keys line with
      | none =>
          refine ⟨line :: preamble, parts, by rw [split, List.cons_append], ?_⟩
          exact List.forall_mem_cons.mpr ⟨read, silent⟩
      | some found =>
          refine ⟨[], ⟨line, found, preamble, read, silent⟩ :: parts, ?_, by simp⟩
          rw [split]
          rfl

end KeyedLines

/-- A tag is made by one of the parts. -/
theorem Tag.exists_keyedLines_of_mem_ofLines {lines : List Text} {tag : Tag Label}
    (member : tag ∈ ofLines keys lines) :
    ∃ part : KeyedLines keys, part.lines ⊆ lines ∧ tag ∈ part.segment.tag? := by
  obtain ⟨preamble, parts, rfl, silent⟩ := KeyedLines.exists_partition keys lines
  rw [ofLines_append (KeyedLines.find?_head?_flatMap parts), ofLines_of_silent silent,
    List.nil_append, KeyedLines.ofLines_flatMap] at member
  obtain ⟨part, among, inside⟩ := List.mem_flatMap.mp member
  rw [ofLines_keyedLines, Option.mem_toList] at inside
  refine ⟨part, ?_, inside⟩
  intro line inPart
  exact List.mem_append_right preamble (List.mem_flatMap.mpr ⟨part, among, inPart⟩)

/-! ## What cutting promises -/

structure Tag.Segmentwise (keys : List (Key Label)) : Prop where
  /-- Lines may be cut in front of a line with a key. -/
  append : ∀ left right : List Text, (∀ line ∈ right.head?, Key.find? keys line ≠ none) →
    ofLines keys (left ++ right) = ofLines keys left ++ ofLines keys right
  /-- All lines can be cut so, into a preamble that makes no tag and segments whose tags come
  in their order. -/
  splits : ∀ lines : List Text, ∃ preamble, ∃ parts : List (KeyedLines keys),
    lines = preamble ++ parts.flatMap KeyedLines.lines ∧
      (∀ line ∈ preamble, Key.find? keys line = none) ∧ ofLines keys preamble = [] ∧
      ofLines keys lines = parts.flatMap fun part => ofLines keys part.lines
  /-- A segment makes at most one tag, and that with its key. -/
  label_eq : ∀ part : KeyedLines keys, (ofLines keys part.lines).length ≤ 1 ∧
    ∀ tag ∈ ofLines keys part.lines, tag.label = part.found.key.label
  /-- It makes none when its key needs a value and has none. -/
  eq_nil_iff : ∀ part : KeyedLines keys, ofLines keys part.lines = [] ↔
    part.found.key.shape ≠ .marker ∧ part.segment.IsValueless
  /-- Taking the lines one by one hands out the same tags. -/
  handsOut_iff : ∀ (lines : List Text) (tags : List (Tag Label)),
    TagReader.HandsOut keys .start lines tags ↔ tags = ofLines keys lines

theorem Tag.segmentwise (keys : List (Key Label)) : Tag.Segmentwise keys where
  append := fun left _ starts => ofLines_append starts left
  splits := by
    intro lines
    obtain ⟨preamble, parts, split, silent⟩ := KeyedLines.exists_partition keys lines
    refine ⟨preamble, parts, split, silent, ofLines_of_silent silent, ?_⟩
    rw [split, ofLines_append (KeyedLines.find?_head?_flatMap parts), ofLines_of_silent silent,
      List.nil_append, KeyedLines.ofLines_flatMap]
  label_eq := by
    intro part
    rw [ofLines_keyedLines]
    refine ⟨Option.length_toList_le, ?_⟩
    intro tag member
    exact Segment.label_of_mem_tag? (Option.mem_toList.mp member)
  eq_nil_iff := by
    intro part
    rw [ofLines_keyedLines, Option.toList_eq_nil_iff, Segment.tag?_eq_none_iff]
    rfl
  handsOut_iff := fun _ _ => TagReader.handsOut_start_iff

/-- An open list is closed by a marker, and a wrapper without a text closes nothing. -/
theorem Tag.segmentwise_of_closed_list :
    let left := ["Alice", "* SPDX-FileContributor:", "Bob", "", " Carol"].map String.toList
    let right := ["REUSE-IgnoreStart Dan", "SPDX-FileNotice: <text>", "</text>"].map String.toList
    let tags : List LicensingTag :=
      [⟨.contributor, .list ["Bob".toList, "Carol".toList]⟩, ⟨.ignoreStart, .text []⟩]
    (∀ line ∈ right.head?, Key.find? licensingKeys line ≠ none) ∧
      Tag.ofLines licensingKeys (left ++ right) =
        Tag.ofLines licensingKeys left ++ Tag.ofLines licensingKeys right ∧
      TagReader.HandsOut licensingKeys .start (left ++ right) tags := by
  intro left right tags
  have starts : ∀ line ∈ right.head?, Key.find? licensingKeys line ≠ none := by
    rintro line ⟨⟩
    decide
  have law := Tag.segmentwise licensingKeys
  exact ⟨starts, law.append left right starts, (law.handsOut_iff _ _).mpr (by decide)⟩

end LicenseSurvey

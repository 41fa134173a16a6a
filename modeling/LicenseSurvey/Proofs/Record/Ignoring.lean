import LicenseSurvey.Proofs.Record.Source
import LicenseSurvey.Proofs.Tag.Partition

/-! # Lines in ignore blocks

The lines of an ignore block are cut into tags like all others, and a field may be open at
either end of the block. Both ends are markers, though: a field in front of the block is
closed before the block begins, and one inside it before the block ends. So what the lines
say comes to nothing.
-/

namespace LicenseSurvey

def LicensingLabel.ofLine? (line : Text) : Option LicensingLabel :=
  (Key.find? licensingKeys line).map fun found => found.key.label

/-! ## The tags of a block -/

namespace LicensingTag

variable {label : LicensingLabel} {line : Text}

def limit (label : LicensingLabel) : LicensingTag := ⟨label, .text []⟩

theorem shape_of_isLimit :
    ∀ key ∈ licensingKeys, (limit key.label).isLimit → key.shape = .marker := by decide

theorem ofLines_cons_of_limit (named : LicensingLabel.ofLine? line = some label)
    (bounds : (limit label).isLimit) (lines : List Text) :
    ofLines (line :: lines) = limit label :: ofLines lines := by
  obtain ⟨found, present, rfl⟩ := Option.map_eq_some_iff.mp named
  have marker : found.key.shape = .marker :=
    shape_of_isLimit found.key (Key.mem_of_find? present) bounds
  rw [ofLines, Tag.ofLines_cons_of_some present, Segment.tag?, Segment.value?, marker]
  rfl

/-- A limit closes the field in front of it and opens none. -/
theorem ofLines_append_cons_of_limit (named : LicensingLabel.ofLine? line = some label)
    (bounds : (limit label).isLimit) (before after : List Text) :
    ofLines (before ++ line :: after) = ofLines before ++ limit label :: ofLines after := by
  rw [← ofLines_cons_of_limit named bounds]
  apply Tag.ofLines_append
  rintro first ⟨⟩ absent
  rw [LicensingLabel.ofLine?, absent] at named
  cases named

theorem exists_ofLine?_of_mem_ofLines {lines : List Text} {tag : LicensingTag}
    (member : tag ∈ ofLines lines) :
    ∃ line ∈ lines, LicensingLabel.ofLine? line = some tag.label := by
  obtain ⟨part, among, inside⟩ := Tag.exists_keyedLines_of_mem_ofLines member
  refine ⟨part.line, among (List.mem_cons_self ..), ?_⟩
  rw [LicensingLabel.ofLine?, part.present, Segment.label_of_mem_tag? inside]
  rfl

end LicensingTag

open LicensingTag (ofLines limit ofLines_append_cons_of_limit)

/-! ## Reading a block -/

namespace Reading

variable {start stop : Text} {hidden : List Text}

theorem foldl_read_of_ignoring (reading : Reading) (tags : List LicensingTag)
    (inside : ∀ tag ∈ tags, tag.label ≠ .ignoreEnd) :
    tags.foldl read { reading with ignoring := true } = { reading with ignoring := true } := by
  induction tags with
  | nil => rfl
  | cons tag tags induction =>
      obtain ⟨here, later⟩ := List.forall_mem_cons.mp inside
      rw [List.foldl_cons, read_of_ignoring reading tag here]
      exact induction later

theorem foldl_read_of_open_block
    (opens : LicensingLabel.ofLine? start = some .ignoreStart)
    (inside : ∀ line ∈ hidden, LicensingLabel.ofLine? line ≠ some .ignoreEnd)
    (reading : Reading) (before : List Text) :
    (ofLines (before ++ start :: hidden)).foldl read reading =
      { (ofLines before).foldl read reading with ignoring := true } := by
  rw [ofLines_append_cons_of_limit opens rfl, List.foldl_append, List.foldl_cons]
  apply foldl_read_of_ignoring
  intro tag member ends
  obtain ⟨line, among, named⟩ := LicensingTag.exists_ofLine?_of_mem_ofLines member
  rw [ends] at named
  exact inside line among named

/-- A block that has ended leaves nothing, and with it end the blocks open in front of it. -/
theorem foldl_read_of_block
    (opens : LicensingLabel.ofLine? start = some .ignoreStart)
    (ends : LicensingLabel.ofLine? stop = some .ignoreEnd)
    (inside : ∀ line ∈ hidden, LicensingLabel.ofLine? line ≠ some .ignoreEnd)
    (reading : Reading) (before after : List Text) :
    (ofLines (before ++ start :: hidden ++ stop :: after)).foldl read reading =
      (ofLines after).foldl read
        { (ofLines before).foldl read reading with ignoring := false } := by
  rw [ofLines_append_cons_of_limit ends rfl, List.foldl_append, List.foldl_cons,
    foldl_read_of_open_block opens inside]
  rfl

end Reading

/-- The lines of an ignore block have no influence on the record. The lines in front of the
block and those behind it are read as if they stood alone, with an end for the blocks that
may be open in front; and an open block might as well be absent. -/
theorem FileRecord.withSource_of_ignored {start stop : Text} {hidden other : List Text}
    (opens : LicensingLabel.ofLine? start = some .ignoreStart)
    (ends : LicensingLabel.ofLine? stop = some .ignoreEnd)
    (inside : ∀ line ∈ hidden, LicensingLabel.ofLine? line ≠ some .ignoreEnd)
    (otherInside : ∀ line ∈ other, LicensingLabel.ofLine? line ≠ some .ignoreEnd)
    (record : FileRecord) (before after : List Text) :
    record.withSource (ofLines (before ++ start :: hidden ++ stop :: after)) =
        record.withSource (ofLines (before ++ start :: other ++ stop :: after)) ∧
      record.withSource (ofLines (before ++ start :: hidden ++ stop :: after)) =
        record.withSource (ofLines before ++ limit .ignoreEnd :: ofLines after) ∧
      record.withSource (ofLines (before ++ start :: hidden)) =
        record.withSource (ofLines (before ++ [start])) ∧
      record.withSource (ofLines (before ++ start :: hidden)) =
        record.withSource (ofLines before) := by
  have alone {lines : List Text}
      (inside : ∀ line ∈ lines, LicensingLabel.ofLine? line ≠ some .ignoreEnd) :
      record.withSource (ofLines (before ++ start :: lines)) =
        record.withSource (ofLines before) := by
    rw [withSource, Reading.foldl_read_of_open_block opens inside, withSource]
  have ended {lines : List Text}
      (inside : ∀ line ∈ lines, LicensingLabel.ofLine? line ≠ some .ignoreEnd) :
      record.withSource (ofLines (before ++ start :: lines ++ stop :: after)) =
        record.withSource (ofLines before ++ limit .ignoreEnd :: ofLines after) := by
    rw [withSource, Reading.foldl_read_of_block opens ends inside, withSource,
      List.foldl_append, List.foldl_cons]
    rfl
  have empty : ∀ line ∈ ([] : List Text), LicensingLabel.ofLine? line ≠ some .ignoreEnd := by
    simp
  exact ⟨(ended inside).trans (ended otherInside).symm, ended inside,
    (alone inside).trans (alone empty).symm, alone inside⟩

/-- A list is open where the block begins and a notice where it ends, and a further block
begins inside. -/
theorem FileRecord.withSource_of_ignored_license :
    let record : FileRecord := ⟨"./a".toList, [], [], [noAssertion], none, noAssertion, none,
      none, [], [], []⟩
    let before := ["SPDX-FileContributor: Alice", "Bob"].map String.toList
    let start := "Carol REUSE-IgnoreStart".toList
    let hidden := ["Dan", "SPDX-License-Identifier: MIT", "REUSE-IgnoreStart",
      "SPDX-FileNotice: <text>Free"].map String.toList
    let stop := "beer</text> REUSE-IgnoreEnd".toList
    let after := ["Erin", "SPDX-FileType: TEXT"].map String.toList
    let contributors := ["Alice".toList, "Bob".toList]
    LicensingLabel.ofLine? start = some .ignoreStart ∧
      LicensingLabel.ofLine? stop = some .ignoreEnd ∧
      (∀ line ∈ hidden, LicensingLabel.ofLine? line ≠ some .ignoreEnd) ∧
      record.withSource (ofLines (before ++ start :: hidden ++ stop :: after)) =
        { record with contributors, fileTypes := ["TEXT".toList] } ∧
      record.withSource (ofLines (before ++ start :: hidden)) = { record with contributors } := by
  intro record before start hidden stop after contributors
  have opens : LicensingLabel.ofLine? start = some .ignoreStart := by decide
  have ends : LicensingLabel.ofLine? stop = some .ignoreEnd := by decide
  have inside : ∀ line ∈ hidden, LicensingLabel.ofLine? line ≠ some .ignoreEnd := by decide
  have empty : ∀ line ∈ ([] : List Text), LicensingLabel.ofLine? line ≠ some .ignoreEnd := by
    decide
  obtain ⟨cut, -, openCut, -⟩ :=
    withSource_of_ignored opens ends inside empty record before after
  exact ⟨opens, ends, inside, cut.trans (by decide), openCut.trans (by decide)⟩

end LicenseSurvey

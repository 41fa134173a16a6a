import LicenseSurvey.Proofs.Comment.Layout
import LicenseSurvey.Proofs.Record.Source
import LicenseSurvey.Proofs.Tag.Statement
import LicenseSurvey.Proofs.Text.Line

/-! # Headers

A header is a sequence of statements at the front of a file, one in each line. It is
written into line comments or into one block comment, and read again it gives the tags
of its statements and nothing else.
-/

namespace LicenseSurvey

abbrev Header := List Statement

namespace Header

def lineComments (header : Header) (marker : Text) : List Text :=
  header.map fun statement => marker ++ ' ' :: statement.text

def blockComment (header : Header) (block : BlockMarkers) : List Text :=
  block.opening ::
    ((header.map fun statement => ' ' :: '*' :: ' ' :: statement.text) ++
      [' ' :: block.closing])

def values (isWanted : LicensingLabel → Bool) (header : Header) : List Text :=
  (header.filter fun statement => isWanted statement.key.label).map Statement.value

structure IsStatedIn (header : Header) (record : FileRecord) : Prop where
  licenses : header.values LicensingTag.statesLicense ≠ [] →
    record.licensesInFile = header.values LicensingTag.statesLicense
  copyright : ∀ value, (header.values (· == .copyright)).getLast? = some value →
    record.copyright = some value
  licenseConcluded : ∀ value, (header.values (· == .licenseConcluded)).getLast? = some value →
    record.licenseConcluded = value

/-! ## Writing -/

theorem byteLines_lineComments {marker : Text} (noFeed : '\n' ∉ marker) (header : Header) :
    Text.byteLines (Text.encode
        ((header.lineComments marker).flatMap fun line => line ++ ['\n'])) =
      (header.lineComments marker).map Text.encode := by
  apply Text.byteLines_encode
  · intro line member
    obtain ⟨statement, -, rfl⟩ := List.mem_map.mp member
    simp [noFeed, statement.noFeed_text]
  · intro line member
    obtain ⟨statement, -, rfl⟩ := List.mem_map.mp member
    have last := statement.getLast?_append_text (marker ++ [' '])
    rwa [List.append_assoc, List.singleton_append] at last

/-! ## Reading the tags -/

theorem texts_map_tag (isWanted : LicensingLabel → Bool) (header : Header) :
    LicensingTag.texts isWanted (header.map Statement.tag) = header.values isWanted := by
  simp [LicensingTag.texts, values, List.filter_map, Function.comp_def, Statement.tag,
    Value.asText]

theorem visible_map_tag (header : Header) :
    LicensingTag.visible (header.map Statement.tag) = header.map Statement.tag := by
  apply LicensingTag.visible_eq_self
  intro tag member
  obtain ⟨statement, -, rfl⟩ := List.mem_map.mp member
  rcases statement.key_eq with key | key | key | key <;> rw [Statement.tag, key] <;> rfl

theorem isStatedIn_withSource (header : Header) (record : FileRecord) :
    header.IsStatedIn (record.withSource (header.map Statement.tag)) := by
  rw [FileRecord.withSource_eq_withTags, visible_map_tag]
  constructor
  · intro stated
    simp only [FileRecord.withTags, texts_map_tag, if_neg stated]
  · intro value last
    simp only [FileRecord.withTags, LicensingTag.lastText?, texts_map_tag, last,
      Option.some_or]
  · intro value last
    simp only [FileRecord.withTags, LicensingTag.lastText?, texts_map_tag, last,
      Option.getD_some]

/-! ## Reading the comments -/

section

variable {markers : Markers} {number : Nat}

theorem flatMap_readLines_lineComments {marker : Text} (line : markers.line = some marker)
    (notEmpty : marker ≠ []) (header : Header) :
    ((Context.readLines markers number .code (header.lineComments marker)).1.flatMap
      fun comment => LicensingTag.ofLines comment.textLines) = header.map Statement.tag := by
  induction header generalizing number with
  | nil => rfl
  | cons statement header induction =>
      have tags : LicensingTag.ofLines [' ' :: statement.text] = [statement.tag] :=
        Statement.ofLines_map_text [statement] []
      rw [lineComments] at induction ⊢
      rw [List.map_cons, Context.readLines, Context.readLine_of_line line notEmpty]
      simp only [List.flatMap_append, List.flatMap_singleton, Comment.textLines_of_line, tags,
        induction]
      rfl

/-- All statements behind stars are one comment. -/
theorem flatMap_readLines_blockComment {block : BlockMarkers}
    (known : markers.block = some block)
    (opens : Markers.markAt? markers.table block.opening =
      some (.blockOpening, block.opening))
    (indented : Markers.markAt? markers.table (' ' :: block.closing) = none)
    (closes : Markers.markAt? markers.table block.closing =
      some (.blockClosing, block.closing))
    (trimmed : Text.trimStart block.closing = block.closing) {header : Header}
    (apart : ∀ statement ∈ header,
      ¬block.closing <:+: ' ' :: '*' :: ' ' :: statement.text) :
    ((Context.readLines markers number .code (header.blockComment block)).1.flatMap
      fun comment => LicensingTag.ofLines comment.textLines) = header.map Statement.tag := by
  have open_ : ∀ line ∈ header.map fun statement => ' ' :: '*' :: ' ' :: statement.text,
      ¬block.closing <:+: line := by
    intro line member
    obtain ⟨statement, among, rfl⟩ := List.mem_map.mp member
    exact apart statement among
  obtain ⟨parts, written, read⟩ := Context.readLines_inside (number + 1)
    [Context.restOfLine number 0 block.opening] 0 [] known indented closes open_
  have texts : (Comment.ofParts markers
      (parts.reverse ++ [Context.restOfLine number 0 block.opening])).textLines =
        [] :: ((header.map fun statement => ' ' :: statement.text) ++ [[' ']]) := by
    apply Comment.textLines_of_block rfl
    · simpa [Comment.ofParts, known] using trimmed
    · intro text member
      obtain ⟨statement, among, rfl⟩ := List.mem_map.mp member
      simpa [Comment.ofParts, known] using apart statement among
    · simp [Comment.ofParts, known, written, Context.restOfLine]
  have blank (lines : List Text) : LicensingTag.ofLines ([] :: lines) =
      LicensingTag.ofLines lines := Tag.ofLines_cons_of_none rfl lines
  have last : LicensingTag.ofLines [[' ']] = [] := rfl
  rw [blockComment, Context.readLines, Context.readLine_opening opens]
  simp only [List.nil_append, read, List.flatMap_singleton, texts, blank,
    Statement.ofLines_map_text, last, List.append_nil]

end

end Header

end LicenseSurvey

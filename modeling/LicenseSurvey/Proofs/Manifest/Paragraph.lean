import LicenseSurvey.Manifest.Reading
import LicenseSurvey.Proofs.Tag.Segment
import LicenseSurvey.Proofs.Text.Paragraph

/-! # Manifests line by line

A manifest can be read from its lines alone: the runs of lines that are not empty and
hold more than blank characters are its paragraphs, each of which is read for itself. So
only two things can be wrong with a document, and empty lines matter only by their
presence.
-/

namespace LicenseSurvey

open Text (isBlank lineParagraphs rawLines)

theorem not_isBlank_of_mem_manifestKeys :
    ∀ key ∈ manifestKeys, ∀ letter ∈ key.name, isBlank letter = false := by
  have named : ∀ key ∈ manifestKeys, key.name.any isBlank = false := by decide
  intro key member letter inside
  have plain := List.any_eq_false.mp (named key member) letter inside
  rwa [Bool.not_eq_true] at plain

def ManifestTag.ofRun (run : List Text) : List ManifestTag := Tag.ofLines manifestKeys run

def ManifestTag.StatesFormat (run : List Text) : Prop :=
  ∃ line ∈ run, ∃ found, Key.find? manifestKeys line = some found ∧
    found.key.label = .format ∧ Text.trim found.after ≠ []

theorem ManifestTag.statesFormat_iff (run : List Text) :
    StatesFormat run ↔ lastText? .format (ofRun run) ≠ none := by
  have oneLine : ∀ key ∈ manifestKeys, key.label = .format → key.shape = .line := by decide
  rw [StatesFormat, ← Tag.exists_mem_ofLines_iff oneLine, lastText?, last?]
  simp [ofRun]

theorem ManifestHeader.exists_ofTags {run : List Text} (stated : ManifestTag.StatesFormat run) :
    ∃ header, ofTags (ManifestTag.ofRun run) = .ok header := by
  obtain ⟨format, present⟩ :=
    Option.ne_none_iff_exists'.mp ((ManifestTag.statesFormat_iff run).mp stated)
  rw [ofTags, present]
  exact ⟨_, rfl⟩

theorem ManifestHeader.ofTags_eq_missingFormat {run : List Text}
    (silent : ¬ManifestTag.StatesFormat run) :
    ofTags (ManifestTag.ofRun run) = .error .missingFormat := by
  rw [ManifestTag.statesFormat_iff, not_not] at silent
  rw [ofTags, silent]

namespace Manifest

def ofLineParagraphs : (paragraphs : List (List Text)) → Except ManifestError Manifest
  | [] => .error .empty
  | first :: later => do
      let header ← ManifestHeader.ofTags (ManifestTag.ofRun first)
      return { header, stanzas := later.map fun run => Stanza.ofTags (ManifestTag.ofRun run) }

theorem parse_eq_ofLineParagraphs (document : Text) :
    parse document = ofLineParagraphs (lineParagraphs document) := by
  have same := @Text.map_paragraphs _ (Tag.ofLines manifestKeys)
    (Tag.ofLines_map_trim not_isBlank_of_mem_manifestKeys)
    (fun lines => Tag.ofLines_cons_of_none rfl lines) document
  rw [parse]
  cases runs : lineParagraphs document with
  | nil =>
      rw [runs, List.map_nil, List.map_eq_nil_iff] at same
      rw [same]
      rfl
  | cons first later =>
      rw [runs, List.map_cons, List.map_eq_cons_iff] at same
      obtain ⟨piece, pieces, split, head, tail⟩ := same
      have stanzas : pieces.map Stanza.ofParagraph =
          later.map fun run => Stanza.ofTags (ManifestTag.ofRun run) := by
        have behind := congrArg (List.map Stanza.ofTags) tail
        rwa [List.map_map, List.map_map] at behind
      rw [split]
      simp only [ofLineParagraphs, ManifestTag.ofParagraph, ManifestTag.ofRun, head, stanzas]

theorem ofLineParagraphs_of_statesFormat {first : List Text}
    (stated : ManifestTag.StatesFormat first) (later : List (List Text)) :
    ∃ header, ManifestHeader.ofTags (ManifestTag.ofRun first) = .ok header ∧
      ofLineParagraphs (first :: later) = .ok
        { header, stanzas := later.map fun run => Stanza.ofTags (ManifestTag.ofRun run) } := by
  obtain ⟨header, read⟩ := ManifestHeader.exists_ofTags stated
  refine ⟨header, read, ?_⟩
  rw [ofLineParagraphs, read]
  rfl

theorem ofLineParagraphs_of_not_statesFormat {first : List Text}
    (silent : ¬ManifestTag.StatesFormat first) (later : List (List Text)) :
    ofLineParagraphs (first :: later) = .error .missingFormat := by
  rw [ofLineParagraphs, ManifestHeader.ofTags_eq_missingFormat silent]
  rfl

/-- The three ways in which a document is read, by its paragraphs. -/
theorem parse_cases (document : Text) :
    lineParagraphs document = [] ∧ parse document = .error .empty ∨
      (∃ first later, lineParagraphs document = first :: later ∧
        ¬ManifestTag.StatesFormat first ∧ parse document = .error .missingFormat) ∨
      ∃ first later, lineParagraphs document = first :: later ∧
        ManifestTag.StatesFormat first ∧
          ∃ header, ManifestHeader.ofTags (ManifestTag.ofRun first) = .ok header ∧
            parse document = .ok
              { header, stanzas := later.map fun run =>
                  Stanza.ofTags (ManifestTag.ofRun run) } := by
  rw [parse_eq_ofLineParagraphs]
  cases lineParagraphs document with
  | nil => exact .inl ⟨rfl, rfl⟩
  | cons first later =>
      by_cases stated : ManifestTag.StatesFormat first
      · exact .inr (.inr ⟨first, later, rfl, stated,
          ofLineParagraphs_of_statesFormat stated later⟩)
      · exact .inr (.inl ⟨first, later, rfl, stated,
          ofLineParagraphs_of_not_statesFormat stated later⟩)

/-- A document is read from its lines. It is refused when no paragraph is in it, which means
that it is blank, or when its first paragraph does not state the format; else the first
paragraph is the header and each later one a stanza, read for itself. Empty lines at the
ends of the document and beside other empty lines count for nothing. -/
theorem parse_line_by_line (document : Text) :
    (parse document = .error .empty ↔ lineParagraphs document = []) ∧
    (lineParagraphs document = [] ↔ ∀ character ∈ document, isBlank character = true) ∧
    (parse document = .error .missingFormat ↔
      ∃ first later, lineParagraphs document = first :: later ∧
        ¬ManifestTag.StatesFormat first) ∧
    (∀ first later, lineParagraphs document = first :: later →
      ManifestTag.StatesFormat first →
        ∃ header, ManifestHeader.ofTags (ManifestTag.ofRun first) = .ok header ∧
          parse document = .ok
            { header, stanzas := later.map fun run => Stanza.ofTags (ManifestTag.ofRun run) }) ∧
    ∀ left right, rawLines document = left ++ right →
      left = [] ∨ left.getLast? = some [] ∨ right = [] ∨ right.head? = some [] →
        ∀ count other, rawLines other = left ++ (List.replicate count [] ++ right) →
          parse other = parse document := by
  refine ⟨?_, Text.lineParagraphs_eq_nil_iff document, ?_, ?_, ?_⟩
  · rcases parse_cases document with ⟨none, failed⟩ | ⟨first, later, some, -, failed⟩ |
        ⟨first, later, some, -, header, -, read⟩
    · simp [none, failed]
    · simp [some, failed]
    · simp [some, read]
  · rcases parse_cases document with ⟨none, failed⟩ | ⟨first, later, some, silent, failed⟩ |
        ⟨first, later, some, stated, header, -, read⟩
    · simp [none, failed]
    · simp [some, failed, silent]
    · simp [some, read, stated]
  · intro first later split stated
    rw [parse_eq_ofLineParagraphs, split]
    exact ofLineParagraphs_of_statesFormat stated later
  · intro left right lines gap count other written
    rw [parse_eq_ofLineParagraphs, parse_eq_ofLineParagraphs, lineParagraphs, lineParagraphs,
      written, lines, Text.runs_replicate_of_gap gap]

private def plainDocument : Text := "Format: 1\r\n\r\nFiles: *\nLicense: MIT".toList

private def looseDocument : Text :=
  "Format: 1\n\n\n\r\n\nFiles: *\r\nLicense: MIT".toList

theorem parse_line_by_line_of_loose_document :
    (∃ header, parse plainDocument = .ok
      { header, stanzas := [⟨["*".toList], none, none, some "MIT".toList, none⟩] }) ∧
    parse looseDocument = parse plainDocument := by
  obtain ⟨-, -, -, accepted, loosened⟩ := parse_line_by_line plainDocument
  have stated : ManifestTag.StatesFormat ["Format: 1".toList] :=
    ⟨"Format: 1".toList, List.mem_singleton_self _, _, rfl, rfl, by decide⟩
  obtain ⟨header, -, read⟩ :=
    accepted ["Format: 1".toList] [["Files: *".toList, "License: MIT".toList]]
      (by decide) stated
  exact ⟨⟨header, read⟩, loosened ["Format: 1".toList]
    [[], "Files: *".toList, "License: MIT".toList] (by decide) (.inr (.inr (.inr rfl))) 3
    looseDocument (by decide)⟩

end Manifest

end LicenseSurvey

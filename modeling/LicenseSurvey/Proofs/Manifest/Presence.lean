import LicenseSurvey.Proofs.Manifest.Document
import LicenseSurvey.Proofs.Tag.RoundTrip
import LicenseSurvey.Proofs.Text.Line
import LicenseSurvey.Record.Basic

/-! # Texts that are present

A field without a value is not read, so the fields of a manifest are not empty and have no
blank characters around them. Only a text of several lines can still become empty: a field in
which nothing but dots is written has a value, and when the dots are read as empty lines
nothing is left of it. Such a field counts as present. So an empty copyright of a stanza takes
precedence over the one of the header and over the one of the record.
-/

namespace LicenseSurvey

open Manifest (plainText licenseName licenseText?)
open ManifestTag (last? lastText? ofParagraph)

variable {text : Text}

/-! ## Lone dots -/

def Text.IsDots (text : Text) : Prop :=
  ∀ line ∈ lines text, trim line = [] ∨ trim line = ['.']

instance (text : Text) : Decidable text.IsDots :=
  inferInstanceAs (Decidable (∀ line ∈ Text.lines text, _))

example : Text.IsDots ".\n\n .".toList ∧ ¬Text.IsDots ".\n..".toList := by decide

/-- When the dots are taken away, nothing is left of a text of dots, and of no other. -/
theorem Manifest.plainText_eq_nil_iff : plainText text = [] ↔ text.IsDots := by
  have feed : ∀ character ∈ ['\n'], Text.isBlank character = true :=
    List.forall_mem_singleton.mpr rfl
  rw [plainText, Text.trim_eq_nil_iff, Text.forall_mem_join feed, List.forall_mem_map, Text.IsDots]
  apply forall₂_congr
  intro line member
  rw [← Text.trim_eq_nil_iff]
  by_cases dot : Text.trim line = ['.']
  · rw [if_pos dot]
    exact iff_of_true rfl (.inr dot)
  · rw [if_neg dot, or_iff_left dot]

theorem Manifest.trim_plainText (text : Text) : Text.trim (plainText text) = plainText text :=
  Text.trim_trim _

theorem Manifest.trim_of_licenseText? {licenseText : Text}
    (present : licenseText? text = some licenseText) :
    licenseText ≠ [] ∧ Text.trim licenseText = licenseText := by
  rw [licenseText?] at present
  split at present
  · cases present
  · rename_i notEmpty
    rcases Option.some.inj present with rfl
    exact ⟨notEmpty, trim_plainText _⟩

theorem Manifest.isRow_licenseName {keys : List (Key ManifestField)}
    (isFormatted : text.IsFormatted keys) : (licenseName text).IsRow := by
  rcases List.exists_cons_of_ne_nil (Text.rows_ne_nil text) with ⟨first, further, split⟩
  have whole := Text.join_rows text
  have trimmed := isFormatted.trimmed
  have notEmpty := isFormatted.first
  have noFeed : '\n' ∉ first := Text.not_mem_of_mem_rows (split ▸ List.mem_cons_self ..)
  rw [split] at whole trimmed notEmpty
  rw [licenseName, ← whole, Text.takeWhile_join noFeed, trimmed first (List.mem_cons_self ..)]
  exact ⟨fun empty => notEmpty (congrArg some empty), trimmed first (List.mem_cons_self ..), noFeed⟩

/-! ## Values of a paragraph -/

namespace ManifestTag

variable {paragraph : Text} {field : ManifestField} {value : Value}

theorem suits_of_mem {tag : ManifestTag} (member : tag ∈ ofParagraph paragraph) :
    tag.value.Suits manifestKeys tag.label.key.shape := by
  have known : ∀ key ∈ manifestKeys, key.label.key = key := by decide
  rcases Tag.isWellFormed_of_mem_ofLines (fun _ => Text.noFeed_of_mem_lines) member with
    ⟨key, among, labelled, suits⟩
  rwa [← labelled, known key among]

theorem suits_of_last? (found : last? field (ofParagraph paragraph) = some value) :
    value.Suits manifestKeys field.key.shape := by
  rcases Option.map_eq_some_iff.mp found with ⟨tag, last, rfl⟩
  rcases List.mem_filter.mp (List.mem_of_getLast? last) with ⟨member, named⟩
  rw [← of_decide_eq_true named]
  exact suits_of_mem member

theorem exists_suits_of_lastText? (found : lastText? field (ofParagraph paragraph) = some text) :
    ∃ value : Value, value.Suits manifestKeys field.key.shape ∧ value.asText = text := by
  rcases Option.map_eq_some_iff.mp found with ⟨value, last, whole⟩
  exact ⟨value, suits_of_last? last, whole⟩

theorem isRow_of_lastText? (shape : field.key.shape = .line)
    (found : lastText? field (ofParagraph paragraph) = some text) : text.IsRow := by
  rcases exists_suits_of_lastText? found with ⟨value, suits, rfl⟩
  rw [shape] at suits
  rcases suits with ⟨isRow⟩
  exact isRow

theorem isFormatted_of_lastText? (shape : field.key.shape = .formatted)
    (found : lastText? field (ofParagraph paragraph) = some text) :
    text.IsFormatted manifestKeys := by
  rcases exists_suits_of_lastText? found with ⟨value, suits, rfl⟩
  rw [shape] at suits
  rcases suits with - | ⟨isFormatted⟩
  exact isFormatted

theorem isRow_of_mem_asList (shape : field.key.shape = .lines)
    (member : text ∈ ((last? field (ofParagraph paragraph)).map Value.asList).getD []) :
    text.IsRow := by
  cases last : last? field (ofParagraph paragraph) with
  | none =>
      rw [last] at member
      cases member
  | some value =>
      have suits := suits_of_last? last
      rw [last] at member
      rw [shape] at suits
      rcases suits with - | - | ⟨-, isRow, -⟩
      exact isRow text member

theorem isRow_of_licenseName {name : Text}
    (found : (lastText? .license (ofParagraph paragraph)).map licenseName = some name) :
    name.IsRow := by
  rcases Option.map_eq_some_iff.mp found with ⟨text, last, rfl⟩
  exact Manifest.isRow_licenseName (isFormatted_of_lastText? rfl last)

/-- The field has a value, but only of dots. -/
def HasDots (field : ManifestField) (tags : List ManifestTag) : Prop :=
  ∃ text, lastText? field tags = some text ∧ text.IsDots

theorem lastText?_eq_none_iff {tags : List ManifestTag} :
    lastText? field tags = none ↔ ∀ tag ∈ tags, tag.label ≠ field := by
  simp [lastText?, last?]

/-- What is read from a field of several lines is absent when the field has no value. Else it
has no blank characters around it, and it is empty when the field has only dots, and in no
other case. -/
structure GivesProse (tags : List ManifestTag) (field : ManifestField) (text? : Option Text) :
    Prop where
  absent_iff : text? = none ↔ ∀ tag ∈ tags, tag.label ≠ field
  trimmed : ∀ text ∈ text?, Text.trim text = text
  empty_iff : text? = some [] ↔ HasDots field tags

theorem givesProse (tags : List ManifestTag) (field : ManifestField) :
    GivesProse tags field ((lastText? field tags).map plainText) where
  absent_iff := by rw [Option.map_eq_none_iff, lastText?_eq_none_iff]
  trimmed := by
    intro text present
    rcases Option.map_eq_some_iff.mp present with ⟨whole, -, rfl⟩
    exact Manifest.trim_plainText whole
  empty_iff := by
    simp only [Option.map_eq_some_iff, Manifest.plainText_eq_nil_iff, HasDots]

end ManifestTag

/-! ## Paragraphs -/

structure ManifestHeader.IsFull (tags : List ManifestTag) (header : ManifestHeader) : Prop where
  format : header.format.IsRow
  upstreamName : ∀ name ∈ header.upstreamName, name.IsRow
  upstreamContact : ∀ contact ∈ header.upstreamContact, contact.IsRow
  source : ManifestTag.GivesProse tags .source header.source
  disclaimer : ManifestTag.GivesProse tags .disclaimer header.disclaimer
  comment : ManifestTag.GivesProse tags .comment header.comment
  license : ∀ name ∈ header.license, name.IsRow
  copyright : ManifestTag.GivesProse tags .copyright header.copyright

structure Stanza.IsFull (tags : List ManifestTag) (stanza : Stanza) : Prop where
  files : ∀ pattern ∈ stanza.files, pattern.IsWord
  copyright : ManifestTag.GivesProse tags .copyright stanza.copyright
  comment : ManifestTag.GivesProse tags .comment stanza.comment
  license : ∀ name ∈ stanza.license, name.IsRow
  licenseText : ∀ text ∈ stanza.licenseText, text ≠ [] ∧ Text.trim text = text

theorem ManifestHeader.isFull_of_ofTags {paragraph : Text} {header : ManifestHeader}
    (read : ofTags (ofParagraph paragraph) = .ok header) :
    header.IsFull (ofParagraph paragraph) := by
  rw [ofTags] at read
  split at read
  · cases read
  · rename_i format stated
    rcases Except.ok.inj read with rfl
    exact
      { format := ManifestTag.isRow_of_lastText? rfl stated
        upstreamName := fun _ => ManifestTag.isRow_of_lastText? rfl
        upstreamContact := fun _ => ManifestTag.isRow_of_mem_asList rfl
        source := ManifestTag.givesProse _ .source
        disclaimer := ManifestTag.givesProse _ .disclaimer
        comment := ManifestTag.givesProse _ .comment
        license := fun _ => ManifestTag.isRow_of_licenseName
        copyright := ManifestTag.givesProse _ .copyright }

theorem Stanza.isFull_ofParagraph (paragraph : Text) :
    (Stanza.ofParagraph paragraph).IsFull (ManifestTag.ofParagraph paragraph) where
  files := by
    intro pattern member
    rcases List.mem_flatMap.mp member with ⟨tag, among, inside⟩
    rcases List.mem_filter.mp among with ⟨here, named⟩
    have suits := ManifestTag.suits_of_mem here
    rw [of_decide_eq_true named] at suits
    generalize tag.value = value at suits inside
    rcases suits with - | - | - | ⟨-, isWord⟩
    exact isWord pattern inside
  copyright := ManifestTag.givesProse _ .copyright
  comment := ManifestTag.givesProse _ .comment
  license := fun _ => ManifestTag.isRow_of_licenseName
  licenseText := by
    intro licenseText present
    rcases Option.bind_eq_some_iff.mp present with ⟨text, -, inside⟩
    exact Manifest.trim_of_licenseText? inside

/-! ## Records -/

theorem FileRecord.copyright_withStanza {record : FileRecord} {header : ManifestHeader}
    {stanza : Stanza} :
    (record.withStanza header stanza).copyright = some text ↔
      stanza.copyright = some text ∨ stanza.copyright = none ∧
        (header.copyright = some text ∨
          header.copyright = none ∧ record.copyright = some text) := by
  simp only [withStanza, Option.or_eq_some_iff, Option.or_eq_none_iff]
  cases stanza.copyright <;> simp

theorem FileRecord.nil_mem_licensesInFile {record : FileRecord} {header : ManifestHeader}
    {stanza : Stanza} (inStanza : ∀ name ∈ stanza.license, name.IsRow)
    (inHeader : ∀ name ∈ header.license, name.IsRow)
    (empty : [] ∈ (record.withStanza header stanza).licensesInFile) :
    [] ∈ record.licensesInFile := by
  rw [withStanza] at empty
  cases stated : stanza.license.or header.license with
  | none =>
      rw [stated] at empty
      exact empty
  | some name =>
      rw [stated, Option.map_some, Option.getD_some, List.mem_singleton] at empty
      rcases Option.or_eq_some_iff.mp stated with here | ⟨-, behind⟩
      · exact absurd empty.symm (inStanza name here).notEmpty
      · exact absurd empty.symm (inHeader name behind).notEmpty

namespace Manifest

/-- Names, contacts, patterns and licenses that are present in a manifest are not empty, and
nothing in it has blank characters around it. A text of several lines is present and empty just
when its field has only dots. So a stanza never empties a license, but it empties the copyright
of a record where the copyright field that counts, its own or else the one of the header, has
only dots. -/
theorem present_texts {document : Text} {manifest : Manifest}
    (read : parse document = .ok manifest) :
    ∃ first later, Text.paragraphs document = first :: later ∧
      manifest.header.IsFull (ofParagraph first) ∧
      manifest.stanzas = later.map Stanza.ofParagraph ∧
      ∀ paragraph ∈ later,
        (Stanza.ofParagraph paragraph).IsFull (ofParagraph paragraph) ∧
        ∀ record : FileRecord,
          ((record.withStanza manifest.header (Stanza.ofParagraph paragraph)).copyright =
              some [] ↔
            ManifestTag.HasDots .copyright (ofParagraph paragraph) ∨
              (Stanza.ofParagraph paragraph).copyright = none ∧
                (ManifestTag.HasDots .copyright (ofParagraph first) ∨
                  manifest.header.copyright = none ∧ record.copyright = some [])) ∧
          ([] ∈ (record.withStanza manifest.header
              (Stanza.ofParagraph paragraph)).licensesInFile → [] ∈ record.licensesInFile) := by
  rw [parse] at read
  split at read
  · cases read
  · rename_i first later split
    cases head : ManifestHeader.ofTags (ofParagraph first) with
    | error problem =>
        rw [head] at read
        cases read
    | ok header =>
        rw [head] at read
        rcases Except.ok.inj read with rfl
        have full := ManifestHeader.isFull_of_ofTags head
        refine ⟨first, later, split, full, rfl, ?_⟩
        intro paragraph member
        have fullStanza := Stanza.isFull_ofParagraph paragraph
        refine ⟨fullStanza, fun record => ⟨?_, ?_⟩⟩
        · rw [FileRecord.copyright_withStanza, fullStanza.copyright.empty_iff,
            full.copyright.empty_iff]
        · exact FileRecord.nil_mem_licensesInFile fullStanza.license full.license

private def loneDots : Text :=
  "Format: f\nCopyright: 2024 A\n\nFiles: *\nCopyright: .\nLicense: MIT\n .".toList

private def ownedHeader : ManifestHeader :=
  ⟨"f".toList, none, [], none, none, none, none, some "2024 A".toList⟩

private def dottedStanza : Stanza := ⟨["*".toList], some [], none, some "MIT".toList, none⟩

theorem present_texts_of_lone_dots :
    parse loneDots = .ok ⟨ownedHeader, [dottedStanza]⟩ ∧
      ∃ paragraph, Stanza.ofParagraph paragraph = dottedStanza ∧
        dottedStanza.IsFull (ofParagraph paragraph) ∧
        ManifestTag.HasDots .copyright (ofParagraph paragraph) := by
  have read : parse loneDots = .ok ⟨ownedHeader, [dottedStanza]⟩ := by decide
  rcases present_texts read with ⟨first, later, -, -, stanzas, each⟩
  rcases List.map_eq_cons_iff.mp stanzas.symm with ⟨paragraph, rest, rfl, made, -⟩
  have full := (each paragraph (List.mem_cons_self ..)).1
  rw [made] at full
  exact ⟨read, paragraph, made, full, full.copyright.empty_iff.mp rfl⟩

/-- A copyright field with a dot alone takes the place of every other copyright, and it is
empty, while a license text with a dot alone is absent. -/
theorem empty_copyright_of_lone_dots :
    parse loneDots = .ok ⟨ownedHeader, [dottedStanza]⟩ ∧
      dottedStanza.copyright = some [] ∧ ownedHeader.copyright = some "2024 A".toList ∧
      dottedStanza.licenseText = none ∧
      ∀ record : FileRecord, (record.withStanza ownedHeader dottedStanza).copyright = some [] :=
  ⟨by decide, rfl, rfl, rfl, fun _ => rfl⟩

end Manifest

end LicenseSurvey

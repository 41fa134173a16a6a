import LicenseSurvey.Proofs.Manifest.Presence
import LicenseSurvey.Record.Reading

/-! # Well-formed records

Whatever is stated about a file, the texts in its record are texts that are there: a license
fills one line, a comment has no blank characters around it, and there is always a license. A
record begins so, and neither a stanza nor a tag that is read from lines changes this.
-/

namespace LicenseSurvey

structure Text.IsPassage (text : Text) : Prop where
  notEmpty : text ≠ []
  trimmed : trim text = text

/-- A record all of whose texts are there. Only the copyright may be empty, which is the case
where lone dots are all that a manifest says about it. -/
structure FileRecord.IsWellFormed (record : FileRecord) : Prop where
  hasLicense : record.licensesInFile ≠ []
  licensesInFile : ∀ license ∈ record.licensesInFile, license.IsRow
  licenseConcluded : record.licenseConcluded.IsRow
  copyright : ∀ copyright ∈ record.copyright, Text.trim copyright = copyright
  comment : ∀ comment ∈ record.comment, comment.IsPassage
  notice : ∀ notice ∈ record.notice, notice.IsPassage
  contributors : ∀ contributor ∈ record.contributors, contributor.IsRow
  attributions : ∀ attribution ∈ record.attributions, attribution.IsPassage
  fileTypes : ∀ fileType ∈ record.fileTypes, fileType.IsWord

/-! ## Values -/

namespace Value.Suits

variable {Label : Type} {keys : List (Key Label)} {value : Value}

theorem isRow (suits : value.Suits keys .line) : value.asText.IsRow := by
  cases suits with
  | line isRow => exact isRow

theorem isPassage (suits : value.Suits keys .formatted) : value.asText.IsPassage := by
  cases suits with
  | formatted isFormatted => exact ⟨isFormatted.notEmpty, isFormatted.trim_eq⟩

theorem isRow_of_mem (suits : value.Suits keys .lines) : ∀ row ∈ value.asList, row.IsRow := by
  cases suits with
  | lines _ isRow _ => exact isRow

theorem isWord_of_mem (suits : value.Suits keys .words) :
    ∀ word ∈ value.asList, word.IsWord := by
  cases suits with
  | words _ isWord => exact isWord

end Value.Suits

def LicensingLabel.shape : LicensingLabel → Shape
  | .license | .licenseInFile | .licenseConcluded | .copyright => .line
  | .comment | .notice | .attribution => .formatted
  | .contributor => .lines
  | .fileType => .words
  | .ignoreStart | .ignoreEnd => .marker

theorem LicensingTag.suits_of_isWellFormed {tag : LicensingTag}
    (readable : tag.IsWellFormed licensingKeys) :
    tag.value.Suits licensingKeys tag.label.shape := by
  have known : ∀ key ∈ licensingKeys, key.label.shape = key.shape := by decide
  rcases readable with ⟨key, among, labelled, suits⟩
  rwa [← labelled, known key among]

/-! ## The manifest -/

theorem Manifest.exists_isFull_of_parse {document : Text} {manifest : Manifest}
    (read : parse document = .ok manifest) :
    ∃ tags, manifest.header.IsFull tags ∧
      ∀ stanza ∈ manifest.stanzas, ∃ tags, stanza.IsFull tags := by
  rw [parse] at read
  split at read
  · cases read
  · rename_i first later split
    cases stated : ManifestHeader.ofTags (ManifestTag.ofParagraph first) with
    | error problem =>
        rw [stated] at read
        cases read
    | ok header =>
        rw [stated] at read
        rcases Except.ok.inj read with rfl
        refine ⟨_, ManifestHeader.isFull_of_ofTags stated, ?_⟩
        intro stanza member
        rcases List.mem_map.mp member with ⟨paragraph, -, rfl⟩
        exact ⟨_, Stanza.isFull_ofParagraph paragraph⟩

namespace FileRecord

theorem isRow_noAssertion : noAssertion.IsRow := by decide

theorem isWellFormed_initial (path : Text) (content : Bytes) :
    (initial path content).IsWellFormed where
  hasLicense := List.cons_ne_nil _ _
  licensesInFile := List.forall_mem_singleton.mpr isRow_noAssertion
  licenseConcluded := isRow_noAssertion
  copyright := nofun
  comment := nofun
  notice := nofun
  contributors := nofun
  attributions := nofun
  fileTypes := nofun

variable {record : FileRecord}

theorem IsWellFormed.withStanza (wellFormed : record.IsWellFormed) {header : ManifestHeader}
    {stanza : Stanza} {headerTags stanzaTags : List ManifestTag}
    (fullHeader : header.IsFull headerTags) (fullStanza : stanza.IsFull stanzaTags) :
    (record.withStanza header stanza).IsWellFormed := by
  have stated : ∀ license ∈ stanza.license.or header.license, license.IsRow := by
    intro license present
    rcases Option.or_eq_some_iff.mp present with here | ⟨-, behind⟩
    · exact fullStanza.license license here
    · exact fullHeader.license license behind
  refine { wellFormed with hasLicense := ?hasLicense, licensesInFile := ?licensesInFile,
                           copyright := ?copyright }
  case hasLicense =>
    rw [FileRecord.withStanza]
    cases stanza.license.or header.license with
    | none => exact wellFormed.hasLicense
    | some license => exact List.cons_ne_nil license []
  case licensesInFile =>
    rw [FileRecord.withStanza]
    cases present : stanza.license.or header.license with
    | none => exact wellFormed.licensesInFile
    | some license => exact List.forall_mem_singleton.mpr (stated license present)
  case copyright =>
    intro copyright present
    rcases copyright_withStanza.mp present with here | ⟨-, behind | ⟨-, before⟩⟩
    · exact fullStanza.copyright.trimmed copyright here
    · exact fullHeader.copyright.trimmed copyright behind
    · exact wellFormed.copyright copyright before

/-! ## Tags -/

theorem IsWellFormed.turned (wellFormed : record.IsWellFormed) : record.turned.IsWellFormed where
  hasLicense := by
    rw [FileRecord.turned, ne_eq, List.reverse_eq_nil_iff]
    exact wellFormed.hasLicense
  licensesInFile := fun license member =>
    wellFormed.licensesInFile license (List.mem_reverse.mp member)
  licenseConcluded := wellFormed.licenseConcluded
  copyright := wellFormed.copyright
  comment := wellFormed.comment
  notice := wellFormed.notice
  contributors := fun contributor member =>
    wellFormed.contributors contributor (List.mem_reverse.mp member)
  attributions := fun attribution member =>
    wellFormed.attributions attribution (List.mem_reverse.mp member)
  fileTypes := fun fileType member =>
    wellFormed.fileTypes fileType (List.mem_reverse.mp member)

end FileRecord

namespace Reading

open FileRecord (IsWellFormed)

variable {reading : Reading} {tag : LicensingTag}

theorem isWellFormed_write_of_license (wellFormed : reading.record.IsWellFormed)
    (stated : tag.label = .license ∨ tag.label = .licenseInFile) (isRow : tag.value.asText.IsRow) :
    (reading.write tag).record.IsWellFormed := by
  have before : ∀ license ∈ if reading.licensed then reading.record.licensesInFile else [],
      license.IsRow := by
    split
    · exact wellFormed.licensesInFile
    · exact List.forall_mem_nil _
  rcases tag with ⟨label, value⟩
  rcases stated with rfl | rfl <;>
    exact { wellFormed with
      hasLicense := List.cons_ne_nil _ _
      licensesInFile := List.forall_mem_cons.mpr ⟨isRow, before⟩ }

theorem isWellFormed_write (wellFormed : reading.record.IsWellFormed)
    (readable : tag.IsWellFormed licensingKeys) :
    (reading.write tag).record.IsWellFormed := by
  have suits := LicensingTag.suits_of_isWellFormed readable
  rcases tag with ⟨label, value⟩
  cases label with
  | license => exact isWellFormed_write_of_license wellFormed (.inl rfl) suits.isRow
  | licenseInFile => exact isWellFormed_write_of_license wellFormed (.inr rfl) suits.isRow
  | licenseConcluded => exact { wellFormed with licenseConcluded := suits.isRow }
  | copyright =>
      refine { wellFormed with copyright := ?_ }
      rintro _ ⟨⟩
      exact suits.isRow.trimmed
  | comment =>
      refine { wellFormed with comment := ?_ }
      rintro _ ⟨⟩
      exact suits.isPassage
  | notice =>
      refine { wellFormed with notice := ?_ }
      rintro _ ⟨⟩
      exact suits.isPassage
  | contributor =>
      refine { wellFormed with contributors := List.forall_mem_append.mpr ⟨?_, ?_⟩ }
      · intro contributor member
        exact suits.isRow_of_mem contributor (List.mem_reverse.mp member)
      · exact wellFormed.contributors
  | attribution =>
      exact { wellFormed with
        attributions := List.forall_mem_cons.mpr ⟨suits.isPassage, wellFormed.attributions⟩ }
  | fileType =>
      refine { wellFormed with fileTypes := List.forall_mem_append.mpr ⟨?_, ?_⟩ }
      · intro fileType member
        exact suits.isWord_of_mem fileType (List.mem_reverse.mp member)
      · exact wellFormed.fileTypes
  | ignoreStart | ignoreEnd => exact wellFormed

/-- Whether a tag is skipped or not, the record stays well formed. -/
theorem isWellFormed_read (wellFormed : reading.record.IsWellFormed)
    (readable : tag.IsWellFormed licensingKeys) : (reading.read tag).record.IsWellFormed := by
  rw [read]
  split
  · exact wellFormed
  · exact wellFormed
  · split
    · exact wellFormed
    · exact isWellFormed_write wellFormed readable

theorem isWellFormed_foldl_read {tags : List LicensingTag}
    (wellFormed : reading.record.IsWellFormed)
    (readable : ∀ tag ∈ tags, tag.IsWellFormed licensingKeys) :
    (tags.foldl read reading).record.IsWellFormed := by
  induction tags generalizing reading with
  | nil => exact wellFormed
  | cons tag tags induction =>
      rcases List.forall_mem_cons.mp readable with ⟨here, later⟩
      exact induction (isWellFormed_read wellFormed here) later

end Reading

theorem FileRecord.IsWellFormed.withSource {record : FileRecord}
    (wellFormed : record.IsWellFormed) {tags : List LicensingTag}
    (readable : ∀ tag ∈ tags, tag.IsWellFormed licensingKeys) :
    (record.withSource tags).IsWellFormed :=
  (Reading.isWellFormed_foldl_read wellFormed.turned readable).turned

end LicenseSurvey

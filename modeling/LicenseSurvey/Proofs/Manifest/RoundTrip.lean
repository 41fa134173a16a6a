import LicenseSurvey.Proofs.Manifest.Field

/-! # Manifests read back

A header and a stanza are read back from the paragraphs in which they are written, and so
a well-formed manifest is read back from its document, whatever the order of the fields in
a paragraph.
-/

namespace LicenseSurvey

open Text (dottedRows)
open ManifestTag (lastText?)

/-! ## Headers -/

namespace ManifestHeader.WellFormed

variable {header : ManifestHeader} (wellFormed : header.WellFormed)
include wellFormed

theorem writable_rows : ManifestField.Writable header.rows := by
  constructor
  · intro field
    cases field with
    | format => exact List.forall_mem_singleton.mpr wellFormed.format
    | upstreamName =>
        exact fun row member => wellFormed.upstreamName row (Option.mem_toList.mp member)
    | upstreamContact => exact wellFormed.upstreamContact
    | source => exact Text.isRow_of_mem_flatMap fun text member => (wellFormed.source text member).1
    | disclaimer =>
        exact Text.isRow_of_mem_flatMap fun text member => (wellFormed.disclaimer text member).1
    | comment =>
        exact Text.isRow_of_mem_flatMap fun text member => (wellFormed.comment text member).1
    | license =>
        exact fun row member => (wellFormed.license row (Option.mem_toList.mp member)).1
    | copyright =>
        exact Text.isRow_of_mem_flatMap fun text member => (wellFormed.copyright text member).1
    | files => exact fun row member => absurd member List.not_mem_nil
  · exact wellFormed.absent
  · exact ⟨.format, List.cons_ne_nil _ _⟩

theorem ofTags_ofRows {order : List ManifestField} (each : ∀ field, field ∈ order)
    (once : order.Nodup) : ofTags (ManifestTag.ofRows order header.rows) = .ok header := by
  have format : lastText? .format (ManifestTag.ofRows order header.rows) = some header.format :=
    ManifestTag.lastText?_of_entry once (each .format) rfl
      (fun text stated => Option.some.inj stated ▸ wellFormed.format) rfl
  have upstreamName := ManifestTag.lastText?_of_entry once (each .upstreamName) rfl
    wellFormed.upstreamName (Eq.refl (header.rows .upstreamName))
  have upstreamContact := ManifestTag.asList_last?_of_lines once (each .upstreamContact) rfl
    wellFormed.upstreamContact (Eq.refl (header.rows .upstreamContact))
  have source := ManifestTag.plainText_lastText?_of_prose once (each .source) rfl
    wellFormed.source (Eq.refl (header.rows .source))
  have disclaimer := ManifestTag.plainText_lastText?_of_prose once (each .disclaimer) rfl
    wellFormed.disclaimer (Eq.refl (header.rows .disclaimer))
  have comment := ManifestTag.plainText_lastText?_of_prose once (each .comment) rfl
    wellFormed.comment (Eq.refl (header.rows .comment))
  have copyright := ManifestTag.plainText_lastText?_of_prose once (each .copyright) rfl
    wellFormed.copyright (Eq.refl (header.rows .copyright))
  have written : header.rows .license =
      header.license.toList ++ (none : Option Text).toList.flatMap dottedRows :=
    (List.append_nil header.license.toList).symm
  have license := ManifestTag.license_of_written once (each .license) wellFormed.license
    (fun text absent => absurd absent (Option.not_mem_none text)) (fun _ => rfl) written
  simp only [ofTags, format, upstreamName, upstreamContact, source, disclaimer, comment, license.1,
    copyright]

end ManifestHeader.WellFormed

/-! ## Stanzas -/

namespace Stanza.WellFormed

variable {stanza : Stanza} (wellFormed : stanza.WellFormed)
include wellFormed

theorem writable_rows : ManifestField.Writable stanza.rows := by
  constructor
  · intro field
    cases field with
    | files =>
        rw [rows]
        split
        · exact fun row member => absurd member List.not_mem_nil
        · rename_i notEmpty
          rw [List.forall_mem_singleton]
          apply Text.isRow_join _ notEmpty (by decide)
          exact fun pattern member => (wellFormed.files pattern member).isRow
    | license =>
        rw [rows, List.forall_mem_append]
        exact ⟨fun row member => (wellFormed.license row (Option.mem_toList.mp member)).1,
          Text.isRow_of_mem_flatMap wellFormed.licenseText⟩
    | copyright =>
        exact Text.isRow_of_mem_flatMap fun text member => (wellFormed.copyright text member).1
    | comment =>
        exact Text.isRow_of_mem_flatMap fun text member => (wellFormed.comment text member).1
    | format | upstreamName | upstreamContact | source | disclaimer =>
        exact fun row member => absurd member List.not_mem_nil
  · exact wellFormed.absent
  · exact wellFormed.someField

theorem ofTags_ofRows {order : List ManifestField} (each : ∀ field, field ∈ order)
    (once : order.Nodup) : ofTags (ManifestTag.ofRows order stanza.rows) = stanza := by
  have files := ManifestTag.flatMap_filter_of_words once (each .files) rfl wellFormed.files
    (Eq.refl (stanza.rows .files))
  have copyright := ManifestTag.plainText_lastText?_of_prose once (each .copyright) rfl
    wellFormed.copyright (Eq.refl (stanza.rows .copyright))
  have comment := ManifestTag.plainText_lastText?_of_prose once (each .comment) rfl
    wellFormed.comment (Eq.refl (stanza.rows .comment))
  obtain ⟨license, licenseText⟩ := ManifestTag.license_of_written once (each .license)
    wellFormed.license wellFormed.licenseText wellFormed.beside (Eq.refl (stanza.rows .license))
  rw [ofTags, files, copyright, comment, license, licenseText]

end Stanza.WellFormed

/-! ## Documents -/

namespace Manifest

/-- A well-formed manifest is read back from its document, whatever the order of the fields
in a paragraph and however many line feeds the document ends with. -/
theorem parse_document {manifest : Manifest} (wellFormed : manifest.WellFormed)
    {order : List ManifestField} (each : ∀ field, field ∈ order) (once : order.Nodup)
    (feeds : Nat) :
    parse (manifest.document order ++ List.replicate feeds '\n') = .ok manifest := by
  obtain ⟨header, stanzas⟩ := wellFormed
  have first := header.writable_rows
  have later : ∀ stanza ∈ manifest.stanzas, ManifestField.Writable stanza.rows :=
    fun stanza member => (stanzas stanza member).writable_rows
  have isParagraph : ∀ paragraph ∈ ManifestField.paragraph order manifest.header.rows ::
      manifest.stanzas.map fun stanza => ManifestField.paragraph order stanza.rows,
        Text.IsParagraph paragraph := by
    rw [List.forall_mem_cons, List.forall_mem_map]
    exact ⟨ManifestField.isParagraph_paragraph first each,
      fun stanza member => ManifestField.isParagraph_paragraph (later stanza member) each⟩
  have restored : (manifest.stanzas.map fun stanza => ManifestField.paragraph order stanza.rows).map
      (fun run => Stanza.ofTags (ManifestTag.ofRun run)) = manifest.stanzas := by
    rw [List.map_map]
    have single : ∀ stanza ∈ manifest.stanzas, ((fun run => Stanza.ofTags (ManifestTag.ofRun run)) ∘
        fun stanza => ManifestField.paragraph order stanza.rows) stanza = stanza := by
      intro stanza member
      have read := ManifestTag.ofRun_paragraph (later stanza member) order
      exact (congrArg Stanza.ofTags read).trans ((stanzas stanza member).ofTags_ofRows each once)
    rw [List.map_congr_left single, List.map_id']
  rw [parse_eq_ofLineParagraphs, document, lines,
    Text.lineParagraphs_of_isParagraph isParagraph feeds, ofLineParagraphs,
    ManifestTag.ofRun_paragraph first, header.ofTags_ofRows each once, restored]
  rfl

private def sampleHeader : ManifestHeader where
  format := "1.0".toList
  upstreamName := some "demo".toList
  upstreamContact := ["Ann <a@b>".toList, "Bob: b@c".toList]
  source := none
  disclaimer := none
  comment := some "one.\n\ntwo".toList
  license := some "MIT".toList
  copyright := none

private def sample : Manifest where
  header := sampleHeader
  stanzas :=
    [ ⟨["*".toList, "a/?.c".toList], some "Ann".toList, none, some "MIT".toList,
        some "Do as\n\nyou like.".toList⟩,
      ⟨["doc/*".toList], none, some "draft".toList, none, none⟩ ]

private def sampleOrder : List ManifestField :=
  [.format, .upstreamName, .upstreamContact, .files, .copyright, .license, .comment, .source,
    .disclaimer]

theorem parse_document_of_sample :
    sample.WellFormed ∧
      parse (sample.document sampleOrder ++ List.replicate 1 '\n') = .ok sample := by
  have header : sample.header.WellFormed := by
    constructor
    case absent =>
      intro field
      cases field <;> decide +kernel
    all_goals decide
  have stanzas : ∀ stanza ∈ sample.stanzas, stanza.WellFormed := by
    rw [sample, List.forall_mem_cons, List.forall_mem_singleton]
    constructor
    all_goals
      constructor
      case absent =>
        intro field
        cases field <;> decide +kernel
      case someField => exact ⟨.files, by decide⟩
      all_goals decide
  have wellFormed : sample.WellFormed := ⟨header, stanzas⟩
  exact ⟨wellFormed, parse_document wellFormed (fun field => by cases field <;> decide)
    (by decide) 1⟩

end Manifest

end LicenseSurvey

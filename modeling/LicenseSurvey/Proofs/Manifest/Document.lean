import LicenseSurvey.Proofs.Manifest.Paragraph
import LicenseSurvey.Proofs.Tag.Field

/-! # Manifests as documents

A manifest is written as one paragraph for the header and one for each stanza. A field
stands in one line with the first row of its value, the other rows are indented below it,
and a row that would be empty is a dot. What a document cannot hold is not well-formed: a
row with blank characters around it, a key in a row of its own, or a wrapper that readers
take off.
-/

namespace LicenseSurvey

open Text (join rows)

def ManifestField.key (field : ManifestField) : Key ManifestField :=
  (manifestKeys.find? fun key => key.label = field).get (by cases field <;> rfl)

/-! ## Texts of several rows -/

def Text.dottedRows (text : Text) : List Text :=
  (rows text).map fun row => if row = [] then ['.'] else row

example : Text.dottedRows "a\n\nb".toList = ["a".toList, ".".toList, "b".toList] := by decide

/-- A text whose rows can be told from each other and from their surroundings. -/
structure Text.IsProse (text : Text) : Prop where
  trimmed : ∀ row ∈ rows text, trim row = row
  noDot : ['.'] ∉ rows text
  first : (rows text).head? ≠ some []
  last : (rows text).getLast? ≠ some []

instance (text : Text) : Decidable text.IsProse :=
  decidable_of_iff ((∀ row ∈ rows text, Text.trim row = row) ∧ ['.'] ∉ rows text ∧
      (rows text).head? ≠ some [] ∧ (rows text).getLast? ≠ some [])
    ⟨fun ⟨trimmed, noDot, first, last⟩ => ⟨trimmed, noDot, first, last⟩,
      fun prose => ⟨prose.trimmed, prose.noDot, prose.first, prose.last⟩⟩

/-! ## Rows of fields -/

def ManifestHeader.rows (header : ManifestHeader) : ManifestField → List Text
  | .format => [header.format]
  | .upstreamName => header.upstreamName.toList
  | .upstreamContact => header.upstreamContact
  | .source => header.source.toList.flatMap Text.dottedRows
  | .disclaimer => header.disclaimer.toList.flatMap Text.dottedRows
  | .comment => header.comment.toList.flatMap Text.dottedRows
  | .license => header.license.toList
  | .copyright => header.copyright.toList.flatMap Text.dottedRows
  | .files => []

/-- The rows of a field of a stanza, none when it is not there. The patterns share one
row, and the license text follows the identifier. -/
def Stanza.rows (stanza : Stanza) : ManifestField → List Text
  | .files => if stanza.files = [] then [] else [join [' '] stanza.files]
  | .copyright => stanza.copyright.toList.flatMap Text.dottedRows
  | .comment => stanza.comment.toList.flatMap Text.dottedRows
  | .license => stanza.license.toList ++ stanza.licenseText.toList.flatMap Text.dottedRows
  | _ => []

/-! ## Documents -/

def ManifestField.paragraph (order : List ManifestField) (rows : ManifestField → List Text) :
    List Text :=
  order.flatMap fun field => field.key.lines (rows field)

example :
    ManifestField.paragraph [.files, .license] (Stanza.rows
      ⟨["*".toList, "a/?".toList], none, none, some "MIT".toList, some "Do\n\nso.".toList⟩) =
        ["Files: * a/?".toList, "License: MIT".toList, " Do".toList, " .".toList,
          " so.".toList] := by
  decide

def Manifest.lines (order : List ManifestField) (manifest : Manifest) : List Text :=
  ManifestField.paragraph order manifest.header.rows ++
    (manifest.stanzas.map fun stanza => ManifestField.paragraph order stanza.rows).flatMap
      fun paragraph => [] :: paragraph

def Manifest.document (order : List ManifestField) (manifest : Manifest) : Text :=
  join ['\n'] (manifest.lines order)

/-! ## Well-formed manifests -/

def Stanza.licenseField (name : Text) (licenseText : Option Text) : Text :=
  join ['\n'] (name :: licenseText.toList)

structure ManifestHeader.WellFormed (header : ManifestHeader) : Prop where
  format : header.format.IsRow
  upstreamName : ∀ name ∈ header.upstreamName, name.IsRow
  upstreamContact : ∀ contact ∈ header.upstreamContact, contact.IsRow
  source : ∀ text ∈ header.source, text.IsProse ∧ text.IsUnwrapped
  disclaimer : ∀ text ∈ header.disclaimer, text.IsProse ∧ text.IsUnwrapped
  comment : ∀ text ∈ header.comment, text.IsProse ∧ text.IsUnwrapped
  /-- Without a license text the identifier is the whole field. -/
  license : ∀ name ∈ header.license, name.IsRow ∧ name.IsUnwrapped
  copyright : ∀ text ∈ header.copyright, text.IsProse ∧ text.IsUnwrapped
  absent : ∀ field, ∀ row ∈ (header.rows field).tail, Key.IsAbsent manifestKeys row

structure Stanza.WellFormed (stanza : Stanza) : Prop where
  files : ∀ pattern ∈ stanza.files, pattern.IsWord
  copyright : ∀ text ∈ stanza.copyright, text.IsProse ∧ text.IsUnwrapped
  comment : ∀ text ∈ stanza.comment, text.IsProse ∧ text.IsUnwrapped
  /-- The wrapper is taken off the whole field, so neither part can be judged alone. -/
  license : ∀ name ∈ stanza.license,
    name.IsRow ∧ (licenseField name stanza.licenseText).IsUnwrapped
  licenseText : ∀ text ∈ stanza.licenseText, text.IsProse
  beside : stanza.license = none → stanza.licenseText = none
  absent : ∀ field, ∀ row ∈ (stanza.rows field).tail, Key.IsAbsent manifestKeys row
  someField : ∃ field, stanza.rows field ≠ []

structure Manifest.WellFormed (manifest : Manifest) : Prop where
  header : manifest.header.WellFormed
  stanzas : ∀ stanza ∈ manifest.stanzas, stanza.WellFormed

end LicenseSurvey

import LicenseSurvey.Manifest.Basic
import LicenseSurvey.Tag.Extraction
import LicenseSurvey.Text.Line
import LicenseSurvey.Text.Quoted

/-! # Reading a manifest

The paragraphs of a manifest are read one by one, the first as the header and
every other as a stanza. When a field is written twice in a paragraph the later
one counts; only file patterns add up.
-/

namespace LicenseSurvey

abbrev ManifestTag := Tag ManifestField

namespace ManifestTag

def ofParagraph (paragraph : Text) : List ManifestTag :=
  Tag.ofLines manifestKeys (Text.lines paragraph)

def last? (field : ManifestField) (tags : List ManifestTag) : Option Value :=
  ((tags.filter fun tag => tag.label = field).getLast?).map Tag.value

def lastText? (field : ManifestField) (tags : List ManifestTag) : Option Text :=
  (last? field tags).map Value.asText

end ManifestTag

/-! ## Texts of several lines -/

def Manifest.plainText (text : Text) : Text :=
  Text.trim (Text.join ['\n']
    ((Text.lines text).map fun line => if Text.trim line = ['.'] then [] else line))

def Manifest.licenseName (field : Text) : Text :=
  Text.trim (field.takeWhile (· != '\n'))

def Manifest.licenseText? (field : Text) : Option Text :=
  let text := Manifest.plainText ((field.dropWhile (· != '\n')).drop 1)
  if text = [] then none else some text

open Manifest (plainText licenseName licenseText?)
open ManifestTag (last? lastText?)

/-! ## Paragraphs -/

def ManifestHeader.ofTags (tags : List ManifestTag) : Except ManifestError ManifestHeader :=
  match lastText? .format tags with
  | none => .error .missingFormat
  | some format => .ok
      { format
        upstreamName := lastText? .upstreamName tags
        upstreamContact := ((last? .upstreamContact tags).map Value.asList).getD []
        source := (lastText? .source tags).map plainText
        disclaimer := (lastText? .disclaimer tags).map plainText
        comment := (lastText? .comment tags).map plainText
        license := (lastText? .license tags).map licenseName
        copyright := (lastText? .copyright tags).map plainText }

def Stanza.ofTags (tags : List ManifestTag) : Stanza where
  files := (tags.filter fun tag => tag.label = .files).flatMap fun tag => tag.value.asList
  copyright := (lastText? .copyright tags).map plainText
  comment := (lastText? .comment tags).map plainText
  license := (lastText? .license tags).map licenseName
  licenseText := (lastText? .license tags).bind licenseText?

def Stanza.ofParagraph (paragraph : Text) : Stanza :=
  Stanza.ofTags (ManifestTag.ofParagraph paragraph)

def Manifest.parse (document : Text) : Except ManifestError Manifest :=
  match Text.paragraphs document with
  | [] => .error .empty
  | first :: later => do
      let header ← ManifestHeader.ofTags (ManifestTag.ofParagraph first)
      return { header, stanzas := later.map Stanza.ofParagraph }

/-! ## What has no effect -/

def ManifestHeader.notices (tags : List ManifestTag) : List ManifestNotice :=
  (tags.filter fun tag => tag.label = .files).map fun _ => .filesInHeader

def Stanza.hasField : ManifestField → Bool
  | .files | .copyright | .comment | .license => true
  | _ => false

def Stanza.notices (tags : List ManifestTag) : List ManifestNotice :=
  let files := (Stanza.ofTags tags).files
  ((tags.filter fun tag => !Stanza.hasField tag.label).map fun tag =>
      .fieldInStanza tag.label) ++
    (if files = [] then [.stanzaWithoutFiles] else []) ++
    ((files.filter fun pattern => Wildcard.ofText pattern = .refused).map .refusedPattern)

def Manifest.notices (document : Text) : List ManifestNotice :=
  match Text.paragraphs document with
  | [] => []
  | first :: later =>
      let tags := ManifestTag.ofParagraph first
      ManifestHeader.notices tags ++
        match ManifestHeader.ofTags tags with
        | .ok _ => later.flatMap fun paragraph =>
            Stanza.notices (ManifestTag.ofParagraph paragraph)
        | .error _ => []

def ManifestNotice.message : ManifestNotice → Text
  | .filesInHeader => "Ignoring Files field in DEP5 header".toList
  | .fieldInStanza field =>
      "Ignoring ".toList ++ field.name ++ " field in DEP5 file stanza".toList
  | .stanzaWithoutFiles => "DEP5 stanza without Files field never matches".toList
  | .refusedPattern pattern =>
      "Ignoring DEP5 pattern ".toList ++ Text.quoted pattern ++
        ": Compiled regex exceeds size limit of ".toList ++
        Nat.toDigits 10 Wildcard.sizeLimit ++ " bytes.".toList

end LicenseSurvey

import LicenseSurvey.Tag.Basic
import LicenseSurvey.Wildcard

/-! # Manifests

A repository may describe its licensing in one document. Its header speaks about
the repository as a whole, and each stanza about the files that its patterns
match. The first stanza with a matching pattern governs a file.
-/

namespace LicenseSurvey

inductive ManifestField where
  | format
  | upstreamName
  | upstreamContact
  | source
  | disclaimer
  | comment
  | license
  | copyright
  | files
deriving DecidableEq, Repr

def ManifestField.name : ManifestField → Text
  | .format => "Format".toList
  | .upstreamName => "UpstreamName".toList
  | .upstreamContact => "UpstreamContact".toList
  | .source => "Source".toList
  | .disclaimer => "Disclaimer".toList
  | .comment => "Comment".toList
  | .license => "License".toList
  | .copyright => "Copyright".toList
  | .files => "Files".toList

def manifestKeys : List (Key ManifestField) :=
  [ .row "Format" .format .line,
    .row "Upstream-Name" .upstreamName .line,
    .row "Upstream-Contact" .upstreamContact .lines,
    .row "Source" .source .formatted,
    .row "Disclaimer" .disclaimer .formatted,
    .row "Comment" .comment .formatted,
    .row "License" .license .formatted,
    .row "Copyright" .copyright .formatted,
    .row "Files" .files .words ]

structure ManifestHeader where
  format : Text
  upstreamName : Option Text
  upstreamContact : List Text
  source : Option Text
  disclaimer : Option Text
  comment : Option Text
  /-- The identifier in the first line of the license field. -/
  license : Option Text
  copyright : Option Text
deriving DecidableEq, Repr

structure Stanza where
  /-- The patterns of the files it speaks about. -/
  files : List Text
  copyright : Option Text
  comment : Option Text
  /-- The identifier in the first line of the license field. -/
  license : Option Text
  /-- What the license field says after its first line. -/
  licenseText : Option Text
deriving DecidableEq, Repr

def Stanza.governs (stanza : Stanza) (path : Text) : Bool :=
  stanza.files.any fun pattern => (Wildcard.ofText pattern).accepts path

structure Manifest where
  header : ManifestHeader
  stanzas : List Stanza
deriving DecidableEq, Repr

def Manifest.stanzaFor? (manifest : Manifest) (path : Text) : Option Stanza :=
  manifest.stanzas.find? fun stanza => stanza.governs path

inductive ManifestError where
  | empty
  | missingFormat
deriving DecidableEq, Repr

def ManifestError.message : ManifestError → Text
  | .empty => "DEP5 document is empty".toList
  | .missingFormat => "DEP5 header is missing the Format field".toList

inductive ManifestNotice where
  | filesInHeader
  | fieldInStanza (field : ManifestField)
  | stanzaWithoutFiles
  | refusedPattern (pattern : Text)
deriving DecidableEq, Repr

end LicenseSurvey

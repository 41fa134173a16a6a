import LicenseSurvey.Digest.Md5
import LicenseSurvey.Digest.Sha1
import LicenseSurvey.Manifest.Basic
import LicenseSurvey.Text.Utf8

/-! # File records

A record states what is known about the licensing of one file. It starts with
nothing asserted; the sources of metadata then write over it in turn.
-/

namespace LicenseSurvey

structure FileRecord where
  /-- The path from the root, with `./` in front. -/
  path : Text
  /-- Names the file; it depends on the path alone. -/
  identifier : Text
  checksum : Text
  /-- License expressions in the order in which they were found. -/
  licensesInFile : List Text
  copyright : Option Text
  licenseConcluded : Text
  comment : Option Text
  notice : Option Text
  contributors : List Text
  attributions : List Text
  fileTypes : List Text
deriving DecidableEq, Repr

namespace FileRecord

def noAssertion : Text := "NOASSERTION".toList

def identifierOf (path : Text) : Text :=
  "SPDXRef-".toList ++ Digest.Md5.digest (Text.encode path)

def initial (path : Text) (content : Bytes) : FileRecord where
  path := path
  identifier := identifierOf path
  checksum := Digest.Sha1.digest content
  licensesInFile := [noAssertion]
  copyright := none
  licenseConcluded := noAssertion
  comment := none
  notice := none
  contributors := []
  attributions := []
  fileTypes := []

def hasLicense (record : FileRecord) : Bool :=
  record.licensesInFile.any (· != noAssertion)

def withStanza (record : FileRecord) (header : ManifestHeader) (stanza : Stanza) :
    FileRecord :=
  { record with
    copyright := (stanza.copyright.or header.copyright).or record.copyright
    licensesInFile :=
      ((stanza.license.or header.license).map fun license => [license]).getD
        record.licensesInFile }

end FileRecord

end LicenseSurvey

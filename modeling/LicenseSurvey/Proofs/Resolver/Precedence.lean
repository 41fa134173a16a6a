import LicenseSurvey.Proofs.Outcome
import LicenseSurvey.Proofs.Record.Source
import LicenseSurvey.Resolver.Basic

/-! # Precedence of the sources

The record of a file depends on its three sources in a fixed order: what the file
itself says comes before what its sidecar says, and that before the manifest. For
each field it is stated which tags of which source decide it.
-/

namespace LicenseSurvey

/-! ## The tags of a source -/

namespace Resolver

/-- The tags of the sidecar of a file, of which there are none without a sidecar, or the
failure to read it. -/
def sidecarTags (files : FileView) (absolute : Path) : Except Failure (List LicensingTag) :=
  match files (Path.sidecar absolute) with
  | .file content => .ok (LicensingTag.ofLines (Text.lines (Text.decode content)))
  | .unreadable error => .error (.unreadable (Path.sidecar absolute) error)
  | .directory | .unreachable _ => .ok []

theorem exists_sidecarTags_eq_ok {files : FileView} {absolute : Path}
    (readable : ∀ error, files (Path.sidecar absolute) ≠ .unreadable error) :
    ∃ tags, sidecarTags files absolute = .ok tags := by
  rw [sidecarTags]
  cases found : files (Path.sidecar absolute) with
  | unreadable error => exact absurd found (readable error)
  | file | directory | unreachable => exact ⟨_, rfl⟩

/-- The tags of a file: those in its comments when its language is known, those in its
first lines when it is not, and none when its content is binary. -/
def contentTags (limit : Option Nat) (relative : Path) (content : Bytes) :
    List LicensingTag :=
  if isBinary content then []
  else
    match Language.lookup relative with
    | .ok language =>
        (Comment.extract language.markers limit content).flatMap fun comment =>
          LicensingTag.ofLines comment.textLines
    | .error _ => LicensingTag.ofLines (firstLines limit (Text.decode content))

def fromManifest? (resolver : Resolver) (relative : Path)
    (ofStanza : Stanza → Option Text) (ofHeader : ManifestHeader → Option Text) :
    Option Text :=
  resolver.manifest.bind fun manifest =>
    (manifest.stanzaFor? (Path.slashed relative)).bind fun stanza =>
      (ofStanza stanza).or (ofHeader manifest.header)

/-! ## One source after the other -/

theorem applyManifest_eq (resolver : Resolver) (relative : Path) (record : FileRecord) :
    applyManifest resolver.manifest (Path.slashed relative) record =
      { record with
        copyright :=
          (resolver.fromManifest? relative Stanza.copyright ManifestHeader.copyright).or
            record.copyright
        licensesInFile :=
          ((resolver.fromManifest? relative Stanza.license ManifestHeader.license).map
            fun license => [license]).getD record.licensesInFile } := by
  cases present : resolver.manifest with
  | none => simp [applyManifest, fromManifest?, present]
  | some manifest =>
      cases governed : manifest.stanzaFor? (Path.slashed relative) with
      | none => simp [applyManifest, fromManifest?, present, governed]
      | some stanza =>
          simp [applyManifest, fromManifest?, present, governed, FileRecord.withStanza]

theorem result_applySidecar (files : FileView) (absolute : Path) (record : FileRecord) :
    (applySidecar (Path.sidecar absolute) (files (Path.sidecar absolute)) record).result =
      (sidecarTags files absolute).map record.withSource := by
  rw [sidecarTags]
  cases files (Path.sidecar absolute) with
  | file | unreadable => rfl
  | directory | unreachable => simp [applySidecar, Except.map]

theorem result_applyContent (limit : Option Nat) (relative absolute : Path)
    (content : Bytes) (record : FileRecord) :
    (applyContent limit relative absolute content record).result =
      record.withSource (contentTags limit relative content) := by
  by_cases binary : isBinary content
  · simp [applyContent, contentTags, binary]
  · cases known : Language.lookup relative with
    | ok language =>
        simp [applyContent, contentTags, binary, known, applyComments, List.flatMap_map]
    | error error =>
        simp [applyContent, contentTags, binary, known, applyTags]

/-- The record of a file that can be read is that of its three sources in turn, unless
there is a sidecar that cannot be read. -/
theorem result_resolve (files : FileView) (resolver : Resolver) {path relative : Path}
    {content : Bytes} (placed : Path.relativeTo resolver.root path = .ok relative)
    (found : files (Path.join resolver.root relative) = .file content) :
    (resolver.resolve files path).result =
      (sidecarTags files (Path.join resolver.root relative)).map fun beside =>
        ((applyManifest resolver.manifest (Path.slashed relative)
          (.initial ("./".toList ++ Path.slashed relative) content)).withSource
            beside).withSource (contentTags resolver.options.lineLimit relative content) := by
  simp only [resolve, placed, found, Entry.content, recordOf, Logged.result_bind,
    result_applySidecar]
  cases sidecarTags files (Path.join resolver.root relative) with
  | error failure => rfl
  | ok beside => simp only [Except.map, Logged.result_bind, Logged.result_pure,
      result_applyContent]

theorem exists_sources_of_resolve {files : FileView} {resolver : Resolver} {path : Path}
    {record : FileRecord} (resolved : (resolver.resolve files path).result = .ok record) :
    ∃ relative content beside, Path.relativeTo resolver.root path = .ok relative ∧
      files (Path.join resolver.root relative) = .file content ∧
      sidecarTags files (Path.join resolver.root relative) = .ok beside ∧
      record = ((applyManifest resolver.manifest (Path.slashed relative)
        (.initial ("./".toList ++ Path.slashed relative) content)).withSource
          beside).withSource (contentTags resolver.options.lineLimit relative content) := by
  cases placed : Path.relativeTo resolver.root path with
  | error reason => simp [resolve, placed] at resolved
  | ok relative =>
      cases found : files (Path.join resolver.root relative) with
      | unreadable | directory | unreachable =>
          simp [resolve, placed, found, Entry.content] at resolved
      | file content =>
          rw [result_resolve files resolver placed found] at resolved
          rcases map_eq_ok_iff.mp resolved with ⟨beside, read, made⟩
          exact ⟨relative, content, beside, rfl, found, read, made.symm⟩

/-- The fields of a record that a manifest or a source writes do not depend on the
checksum. -/
theorem withSource_withSource_checksum (resolver : Resolver) (relative : Path)
    (record : FileRecord) (checksum : Text) (beside own : List LicensingTag) :
    ((applyManifest resolver.manifest (Path.slashed relative)
        { record with checksum }).withSource beside).withSource own =
      { ((applyManifest resolver.manifest (Path.slashed relative) record).withSource
          beside).withSource own with checksum } := by
  rw [applyManifest_eq, applyManifest_eq]
  simp only [FileRecord.withSource_eq_withTags]
  rfl

/-- With the same tags in all sources, the bytes of a file are seen in the checksum alone. -/
theorem result_resolve_of_same_tags {files others : FileView} {resolver second : Resolver}
    {path relative : Path} {content other : Bytes}
    (root : second.root = resolver.root) (manifest : second.manifest = resolver.manifest)
    (placed : Path.relativeTo resolver.root path = .ok relative)
    (found : files (Path.join resolver.root relative) = .file content)
    (otherFound : others (Path.join resolver.root relative) = .file other)
    (beside : sidecarTags others (Path.join resolver.root relative) =
      sidecarTags files (Path.join resolver.root relative))
    (own : contentTags second.options.lineLimit relative other =
      contentTags resolver.options.lineLimit relative content) :
    (second.resolve others path).result =
      (resolver.resolve files path).result.map fun record =>
        { record with checksum := Digest.Sha1.digest other } := by
  rw [← root] at placed otherFound
  rw [result_resolve others second placed otherFound]
  rw [root] at placed
  rw [result_resolve files resolver placed found, root, beside, own, manifest]
  cases sidecarTags files (Path.join resolver.root relative) with
  | error failure => rfl
  | ok tags =>
      exact congrArg Except.ok (withSource_withSource_checksum resolver relative
        (.initial ("./".toList ++ Path.slashed relative) content) _ _ _)

open LicensingTag (visible texts elements lastText? statesLicense)

/-- Every field of the record of a file, by the visible tags of the file and of its
sidecar and by the manifest. Licenses and single values come from the first source that
states them, and the other lists hold the elements of the sidecar and then those of the
file. There is no record only when there is a sidecar that cannot be read. -/
theorem resolve_precedence (files : FileView) (resolver : Resolver)
    {path relative : Path} {content : Bytes}
    (placed : Path.relativeTo resolver.root path = .ok relative)
    (found : files (Path.join resolver.root relative) = .file content) :
    let own := visible (contentTags resolver.options.lineLimit relative content)
    let recordPath := "./".toList ++ Path.slashed relative
    (resolver.resolve files path).result =
      (sidecarTags files (Path.join resolver.root relative)).map fun tags =>
        let beside := visible tags
        { path := recordPath
          identifier := FileRecord.identifierOf recordPath
          checksum := Digest.Sha1.digest content
          licensesInFile :=
            if texts statesLicense own ≠ [] then texts statesLicense own
            else if texts statesLicense beside ≠ [] then texts statesLicense beside
            else
              match resolver.fromManifest? relative Stanza.license ManifestHeader.license with
              | some license => [license]
              | none => [FileRecord.noAssertion]
          copyright :=
            (lastText? .copyright own).or ((lastText? .copyright beside).or
              (resolver.fromManifest? relative Stanza.copyright ManifestHeader.copyright))
          licenseConcluded :=
            ((lastText? .licenseConcluded own).or
              (lastText? .licenseConcluded beside)).getD FileRecord.noAssertion
          comment := (lastText? .comment own).or (lastText? .comment beside)
          notice := (lastText? .notice own).or (lastText? .notice beside)
          contributors := elements .contributor beside ++ elements .contributor own
          attributions :=
            texts (· == .attribution) beside ++ texts (· == .attribution) own
          fileTypes := elements .fileType beside ++ elements .fileType own } := by
  intro own recordPath
  have licenses :
      ((resolver.fromManifest? relative Stanza.license ManifestHeader.license).map
          fun license => [license]).getD [FileRecord.noAssertion] =
        match resolver.fromManifest? relative Stanza.license ManifestHeader.license with
        | some license => [license]
        | none => [FileRecord.noAssertion] := by
    cases resolver.fromManifest? relative Stanza.license ManifestHeader.license <;> rfl
  rw [result_resolve files resolver placed found]
  cases sidecarTags files (Path.join resolver.root relative) with
  | error failure => rfl
  | ok tags =>
      simp only [Except.map, applyManifest_eq, FileRecord.withSource_eq_withTags]
      simp only [FileRecord.withTags, FileRecord.initial, licenses, Option.or_none,
        ← Option.getD_or, List.nil_append, ne_eq, ite_not]
      rfl

/-- A file whose only license stands in an ignore block that is never closed. -/
private def ignoringFile : Bytes :=
  Text.encode "//REUSE-IgnoreStart\n//SPDX-License-Identifier: X".toList

private def copyrightSidecar : Bytes := Text.encode "SPDX-FileCopyrightText: Alice".toList

private def twoFiles : FileView := fun path =>
  if path = Path.ofText "/r/a.c".toList then .file ignoringFile else .file copyrightSidecar

private def licensingResolver : Resolver where
  root := Path.ofText "/r".toList
  options := ⟨none, defaultManifestPath⟩
  manifest := some
    { header := ⟨"1".toList, none, [], none, none, none, none, none⟩
      stanzas := [⟨["*".toList], some "Bob".toList, none, some "MIT".toList, none⟩] }

/-- The license comes from the manifest, because the file states one in vain, and the
copyright from the sidecar. -/
theorem resolve_precedence_of_ignoring_file :
    let path := Path.ofText "a.c".toList
    Path.relativeTo licensingResolver.root path = .ok path ∧
      twoFiles (Path.join licensingResolver.root path) = .file ignoringFile ∧
      (licensingResolver.resolve twoFiles path).result =
        .ok { FileRecord.initial "./a.c".toList ignoringFile with
          licensesInFile := ["MIT".toList]
          copyright := some "Alice".toList } := by
  intro path
  have placed : Path.relativeTo licensingResolver.root path = .ok path := rfl
  have found : twoFiles (Path.join licensingResolver.root path) = .file ignoringFile := rfl
  have own : visible (contentTags licensingResolver.options.lineLimit path ignoringFile) = [] := by
    decide +kernel
  have read : sidecarTags twoFiles (Path.join licensingResolver.root path) =
      .ok (LicensingTag.ofLines (Text.lines (Text.decode copyrightSidecar))) := rfl
  have beside : visible (LicensingTag.ofLines (Text.lines (Text.decode copyrightSidecar))) =
      [⟨.copyright, .text "Alice".toList⟩] := by decide +kernel
  have law := resolve_precedence twoFiles licensingResolver placed found
  simp only [own, read, Except.map, beside] at law
  exact ⟨placed, found, law⟩

end Resolver

end LicenseSurvey

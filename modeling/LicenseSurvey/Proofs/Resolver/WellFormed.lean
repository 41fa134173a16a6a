import LicenseSurvey.Proofs.Comment.Decoration
import LicenseSurvey.Proofs.Record.WellFormed
import LicenseSurvey.Proofs.Resolver.Ending

/-! # Well-formed resolutions

The record of a file is well formed whatever the bytes of the file, of its sidecar and of the
manifest are, and however many lines are searched: all tags come from lines without a line feed,
and all stanzas from a document that could be parsed.
-/

namespace LicenseSurvey

/-! ## Sources -/

namespace Resolver

variable {files opened : FileView} {resolver : Resolver} {root path : Path}
  {options : ResolverOptions} {record : FileRecord}

theorem isWellFormed_of_mem_sidecarTags {absolute : Path} {tags : List LicensingTag}
    (read : sidecarTags files absolute = .ok tags) {tag : LicensingTag} (member : tag ∈ tags) :
    tag.IsWellFormed licensingKeys := by
  rw [sidecarTags] at read
  split at read
  · cases read
    exact Tag.isWellFormed_of_mem_ofLines (fun _ => Text.noFeed_of_mem_lines) member
  · cases read
  · cases read
    cases member
  · cases read
    cases member

theorem noFeed_of_mem_firstLines {limit : Option Nat} {text line : Text}
    (member : line ∈ firstLines limit text) : '\n' ∉ line := by
  cases limit with
  | none => exact Text.noFeed_of_mem_lines member
  | some bound => exact Text.noFeed_of_mem_lines (List.mem_of_mem_take member)

theorem isWellFormed_of_mem_contentTags {limit : Option Nat} {relative : Path} {content : Bytes}
    {tag : LicensingTag} (member : tag ∈ contentTags limit relative content) :
    tag.IsWellFormed licensingKeys := by
  rw [contentTags] at member
  split at member
  · cases member
  · split at member
    · rcases List.mem_flatMap.mp member with ⟨comment, found, read⟩
      exact Tag.isWellFormed_of_mem_ofLines
        (fun _ => Comment.noFeed_of_mem_textLines found) read
    · exact Tag.isWellFormed_of_mem_ofLines (fun _ => noFeed_of_mem_firstLines) member

/-! ## The manifest -/

theorem exists_parse_of_load (loaded : (load opened root options).result = .ok resolver) :
    ∀ manifest ∈ resolver.manifest, ∃ document, Manifest.parse document = .ok manifest := by
  intro manifest present
  rw [result_load_eq] at loaded
  rcases map_eq_ok_iff.mp loaded with ⟨held, read, rfl⟩
  rw [result_loadManifest] at read
  split at read
  · rename_i content found
    rcases map_eq_ok_iff.mp read with ⟨other, parsed, rfl⟩
    rcases Option.some.inj present with rfl
    exact ⟨Text.decode content, mapError_eq_ok_iff.mp parsed⟩
  · cases read
  · cases read
    cases present
  · cases read
    cases present

theorem isWellFormed_applyManifest {manifest : Option Manifest}
    (read : ∀ held ∈ manifest, ∃ document, Manifest.parse document = .ok held)
    (wellFormed : record.IsWellFormed) (relative : Text) :
    (applyManifest manifest relative record).IsWellFormed := by
  cases manifest with
  | none => exact wellFormed
  | some manifest =>
      rw [applyManifest]
      split
      · exact wellFormed
      · rename_i stanza governed
        rcases read manifest rfl with ⟨document, parsed⟩
        rcases Manifest.exists_isFull_of_parse parsed with ⟨tags, fullHeader, stanzas⟩
        rcases stanzas stanza (List.mem_of_find?_eq_some governed) with ⟨stanzaTags, fullStanza⟩
        exact wellFormed.withStanza fullHeader fullStanza

/-! ## Files -/

/-- Whatever the repository held when it was opened and whatever it holds when a file of it is
resolved, the record of the file is well formed. -/
theorem isWellFormed_of_resolve (loaded : (load opened root options).result = .ok resolver)
    (resolved : (resolver.resolve files path).result = .ok record) : record.IsWellFormed := by
  rcases exists_sources_of_resolve resolved with ⟨relative, content, beside, -, -, read, rfl⟩
  have begun := FileRecord.isWellFormed_initial ("./".toList ++ Path.slashed relative) content
  have governed := isWellFormed_applyManifest (exists_parse_of_load loaded) begun
    (Path.slashed relative)
  apply FileRecord.IsWellFormed.withSource _ fun _ => isWellFormed_of_mem_contentTags
  exact governed.withSource fun _ => isWellFormed_of_mem_sidecarTags read

private def markedFile : Bytes :=
  Text.encode "/* SPDX-FileComment: <text>a".toList ++ 0xC3 ::
    Text.encode "\n * b</text>\n * SPDX-FileType: C\tTEXT */".toList

private def markedManifest : Bytes :=
  Text.encode
    "Format: 1\n\nFiles: *\nCopyright: .\nLicense: <text> MIT\n A </text>\n".toList

private def markedRoot : Path := Path.ofText "/r".toList

private def markedPath : Path := Path.ofText "a.c".toList

private def markedTree : FileView := fun path =>
  if path = Path.ofText "/r/.reuse/dep5".toList then .file markedManifest
  else if path = Path.ofText "/r/a.c".toList then .file markedFile
  else .unreachable .notFound

private def markedResolver : Resolver where
  root := markedRoot
  options := ⟨none, defaultManifestPath⟩
  manifest := some
    { header := ⟨"1".toList, none, [], none, none, none, none, none⟩
      stanzas := [⟨["*".toList], some [], none, some "MIT".toList, some "A".toList⟩] }

theorem isWellFormed_of_resolve_of_marked_texts :
    (load markedTree markedRoot ⟨none, defaultManifestPath⟩).result = .ok markedResolver ∧
      ∃ record, (markedResolver.resolve markedTree markedPath).result = .ok record ∧
        record.licensesInFile = ["MIT".toList] ∧ record.copyright = some [] ∧
        record.comment = some "a\ufffd\nb".toList ∧
        record.fileTypes = ["C".toList, "TEXT".toList] ∧ record.IsWellFormed := by
  have loaded : (load markedTree markedRoot ⟨none, defaultManifestPath⟩).result =
      .ok markedResolver := rfl
  have placed : Path.relativeTo markedResolver.root markedPath = .ok markedPath := rfl
  have found : markedTree (Path.join markedResolver.root markedPath) = .file markedFile := rfl
  have beside : sidecarTags markedTree (Path.join markedResolver.root markedPath) = .ok [] := rfl
  have own : contentTags markedResolver.options.lineLimit markedPath markedFile =
      [⟨.comment, .text "a\ufffd\nb".toList⟩,
        ⟨.fileType, .list ["C".toList, "TEXT".toList]⟩] := by decide +kernel
  have resolved := result_resolve markedTree markedResolver placed found
  rw [own, beside] at resolved
  exact ⟨loaded, _, resolved, rfl, rfl, rfl, rfl, isWellFormed_of_resolve loaded resolved⟩

end Resolver

end LicenseSurvey

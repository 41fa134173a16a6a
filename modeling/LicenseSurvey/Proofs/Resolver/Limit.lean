import LicenseSurvey.Proofs.Resolver.Precedence
import LicenseSurvey.Proofs.Text.Front

/-! # The line limit

A limit on the lines that are searched is the same as a shorter file. Comments are looked for
in lines of bytes that are counted while they are read, plain text in lines of a text that is
decoded as a whole; both see what is left when the file is cut behind its first lines, whatever
is open at the cut.
-/

namespace LicenseSurvey

theorem Text.sourceLines_frontLines (count : Nat) (content : Bytes) :
    sourceLines none (frontLines count content) = sourceLines (some count) content := by
  rw [sourceLines, sourceLines, readsLines_byteLines.frontLines]
  rfl

theorem Comment.extract_frontLines (markers : Markers) (count : Nat) (content : Bytes) :
    extract markers none (Text.frontLines count content) =
      extract markers (some count) content := by
  rw [extract, extract, Text.sourceLines_frontLines]

namespace Resolver

theorem firstLines_frontLines (count : Nat) (content : Bytes) :
    firstLines none (Text.decode (Text.frontLines count content)) =
      firstLines (some count) (Text.decode content) :=
  Text.readsLines_lines.decode.frontLines count content

theorem contentTags_frontLines {count : Nat} {content : Bytes} (relative : Path)
    (text : isBinary content = false)
    (cutText : isBinary (Text.frontLines count content) = false) :
    contentTags none relative (Text.frontLines count content) =
      contentTags (some count) relative content := by
  rw [contentTags, contentTags, text, cutText]
  cases Language.lookup relative with
  | ok language => simp only [Comment.extract_frontLines]
  | error error => simp only [firstLines_frontLines]

def limitedTo (limit : Option Nat) (resolver : Resolver) : Resolver :=
  { resolver with options := { resolver.options with lineLimit := limit } }

/-- With a limit a file gets the record that it gets without one when it is cut behind its
first lines, as long as it is text in both forms. The checksum alone is that of all bytes.
Nothing else in the repository is cut. Both have a record unless there is a sidecar that
cannot be read. -/
theorem resolve_frontLines {files cutFiles : FileView} (resolver : Resolver) (count : Nat)
    {path relative : Path} {content : Bytes}
    (placed : Path.relativeTo resolver.root path = .ok relative)
    (found : files (Path.join resolver.root relative) = .file content)
    (cutFound : cutFiles (Path.join resolver.root relative) =
      .file (Text.frontLines count content))
    (beside : cutFiles (Path.sidecar (Path.join resolver.root relative)) =
      files (Path.sidecar (Path.join resolver.root relative)))
    (text : isBinary content = false)
    (cutText : isBinary (Text.frontLines count content) = false) :
    ((resolver.limitedTo none).resolve cutFiles path).result =
      ((resolver.limitedTo (some count)).resolve files path).result.map (fun record =>
        { record with checksum := Digest.Sha1.digest (Text.frontLines count content) }) ∧
    ((∀ error, files (Path.sidecar (Path.join resolver.root relative)) ≠ .unreadable error) →
      ∃ record, ((resolver.limitedTo (some count)).resolve files path).result = .ok record) := by
  constructor
  · apply @result_resolve_of_same_tags files cutFiles (resolver.limitedTo (some count))
      (resolver.limitedTo none) _ _ _ _ rfl rfl placed found cutFound
    · simp only [sidecarTags, limitedTo, beside]
    · exact contentTags_frontLines relative text cutText
  · intro readable
    have resolved := result_resolve files (resolver.limitedTo (some count)) placed found
    rcases exists_sidecarTags_eq_ok readable with ⟨tags, read⟩
    rw [limitedTo, read] at resolved
    exact ⟨_, resolved⟩

private def cutComments : Bytes :=
  Text.encode "//SPDX-License-Identifier: X\r\n/*SPDX-License-Identifier: Y\n*/".toList

private def besideCut (content : Bytes) : FileView := fun path =>
  if path = Path.ofText "/r/a.c".toList then .file content
  else .file (Text.encode "\nSPDX-FileCopyrightText: A\n\nSPDX-FileCopyrightText: B".toList)

private def plainResolver : Resolver :=
  ⟨Path.ofText "/r".toList, ⟨none, defaultManifestPath⟩, none⟩

private def cutPath : Path := Path.ofText "a.c".toList

/-- The license in the block comment is not seen, and the sidecar is read to its end. -/
theorem resolve_frontLines_of_open_comment :
    ∃ record,
      ((plainResolver.limitedTo (some 2)).resolve (besideCut cutComments) cutPath).result =
          .ok record ∧
        ((plainResolver.limitedTo none).resolve (besideCut (Text.frontLines 2 cutComments))
            cutPath).result =
          .ok { record with checksum := Digest.Sha1.digest (Text.frontLines 2 cutComments) } ∧
        record.licensesInFile = ["X".toList] ∧ record.copyright = some "B".toList := by
  have law := @resolve_frontLines (besideCut cutComments)
    (besideCut (Text.frontLines 2 cutComments)) plainResolver 2 cutPath cutPath cutComments
    rfl rfl rfl rfl (by decide +kernel) (by decide +kernel)
  rcases law.2 (fun error => nofun) with ⟨record, resolved⟩
  have fields : ((plainResolver.limitedTo (some 2)).resolve (besideCut cutComments)
      cutPath).result.toOption.map
        (fun record => (record.licensesInFile, record.copyright)) =
          some (["X".toList], some "B".toList) := by
    decide +kernel
  have cutResolved := law.1
  rw [resolved] at fields cutResolved
  simp only [Except.toOption, Option.map_some, Option.some.injEq, Prod.mk.injEq] at fields
  exact ⟨record, resolved, cutResolved, fields⟩

end Resolver

end LicenseSurvey

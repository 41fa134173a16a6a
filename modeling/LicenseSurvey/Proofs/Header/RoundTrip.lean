import LicenseSurvey.Proofs.Header.Basic
import LicenseSurvey.Proofs.Language.Lookup
import LicenseSurvey.Proofs.Resolver.Content
import LicenseSurvey.Proofs.Resolver.Precedence

/-! # Headers of files

In every language a header survives being written into comments: the record of the file
says what the header states, whatever the values contain and whatever the manifest and
the sidecar say. A block comment needs two conditions. Its opening marker must not be
read as a line marker, and no value may contain its closing marker.
-/

namespace LicenseSurvey

/-! ## Markers of the registry -/

theorem Language.line_of_mem_registry : ∀ language ∈ registry,
    ∀ marker ∈ language.markers.line,
      marker ≠ [] ∧ '\x00' ∉ marker ∧ Text.IsUnmarked (marker ++ [' ']) := by
  decide +kernel

theorem Language.block_of_mem_registry : ∀ language ∈ registry,
    ∀ block ∈ language.markers.block,
      (∀ marker ∈ language.markers.line, Text.startsWith block.opening marker = false) →
        Markers.markAt? language.markers.table block.opening =
            some (.blockOpening, block.opening) ∧
          Markers.markAt? language.markers.table (' ' :: block.closing) = none ∧
          Markers.markAt? language.markers.table block.closing =
            some (.blockClosing, block.closing) := by
  decide +kernel

theorem Language.blockTexts_of_mem_registry : ∀ language ∈ registry,
    ∀ block ∈ language.markers.block,
      Text.trimStart block.closing = block.closing ∧ ' ' ∉ block.closing ∧
        '\x00' ∉ block.opening ∧ '\x00' ∉ block.closing ∧ block.opening.IsUnmarked ∧
        ∀ key ∈ licensingKeys, ¬block.closing <:+: ' ' :: '*' :: ' ' :: (key.name ++ [':']) := by
  decide +kernel

/-! ## Resolving -/

namespace Header

variable {header : Header} {language : Language} {relative : Path} {content : Bytes}
  {limit : Option Nat}

theorem contentTags_of_lineComments (known : Language.lookup relative = .ok language)
    {marker : Text} (line : language.markers.line = some marker)
    (written : Text.byteLines content = (header.lineComments marker).map Text.encode)
    (complete : ∀ bound, limit = some bound → (Text.byteLines content).length ≤ bound) :
    Resolver.contentTags limit relative content = header.map Statement.tag := by
  have member := (Language.claimsAlone_of_lookup known).mem_registry
  obtain ⟨notEmpty, noNull, unmarked⟩ :=
    Language.line_of_mem_registry language member marker line
  have tags : ((Comment.extract language.markers limit content).flatMap fun comment =>
      LicensingTag.ofLines comment.textLines) = header.map Statement.tag := by
    rw [Comment.extract, Text.sourceLines_of_written written complete]
    exact flatMap_readLines_lineComments line notEmpty header
  cases header with
  -- A file without lines may even be binary.
  | nil =>
      rw [Resolver.contentTags, known]
      split
      · rfl
      · exact tags
  | cons statement header =>
      have text : isBinary content = false := by
        have first : marker ++ ' ' :: statement.text =
            (marker ++ [' ']) ++ statement.text := by simp
        rw [lineComments, List.map_cons, first] at written
        apply isBinary_eq_false written _ unmarked
        intro line among
        rw [← first] at among
        rcases List.mem_cons.mp among with rfl | among
        · simp [noNull, statement.noNull_text]
        · obtain ⟨other, -, rfl⟩ := List.mem_map.mp among
          simp [noNull, other.noNull_text]
      rw [Resolver.contentTags, text, known]
      exact tags

theorem contentTags_of_blockComment (known : Language.lookup relative = .ok language)
    {block : BlockMarkers} (surrounds : language.markers.block = some block)
    (different : ∀ marker, language.markers.line = some marker →
      Text.startsWith block.opening marker = false)
    (apart : ∀ statement ∈ header, ¬block.closing <:+: statement.value)
    (written : Text.byteLines content = (header.blockComment block).map Text.encode)
    (complete : ∀ bound, limit = some bound → (Text.byteLines content).length ≤ bound) :
    Resolver.contentTags limit relative content = header.map Statement.tag := by
  have member := (Language.claimsAlone_of_lookup known).mem_registry
  obtain ⟨opens, indented, closes⟩ :=
    Language.block_of_mem_registry language member block surrounds different
  obtain ⟨trimmed, blank, noNullFront, noNullBack, unmarked, keys⟩ :=
    Language.blockTexts_of_mem_registry language member block surrounds
  have text : isBinary content = false := by
    rw [blockComment, ← List.append_nil block.opening] at written
    apply isBinary_eq_false written _ unmarked
    intro line among
    rw [List.append_nil] at among
    rcases List.mem_cons.mp among with rfl | among
    · exact noNullFront
    rcases List.mem_append.mp among with among | among
    · obtain ⟨statement, -, rfl⟩ := List.mem_map.mp among
      simp [statement.noNull_text]
    · rw [List.mem_singleton.mp among]
      simp [noNullBack]
  rw [Resolver.contentTags, text, known]
  change ((Comment.extract language.markers limit content).flatMap fun comment =>
    LicensingTag.ofLines comment.textLines) = header.map Statement.tag
  rw [Comment.extract, Text.sourceLines_of_written written complete]
  exact flatMap_readLines_blockComment surrounds opens indented closes trimmed
    fun statement among => statement.not_infix_text blank keys (apart statement among)

/-- A header in line comments, or in a block comment whose opening marker is not read as
a line marker and whose closing marker is in no value, decides the fields that it
states, whatever the manifest and the sidecar say. -/
theorem resolve_header (files : FileView) (resolver : Resolver) {path : Path}
    (header : Header) (placed : Path.relativeTo resolver.root path = .ok relative)
    (found : files (Path.join resolver.root relative) = .file content)
    (readable : ∀ error,
      files (Path.sidecar (Path.join resolver.root relative)) ≠ .unreadable error)
    (known : Language.lookup path = .ok language)
    (complete : ∀ bound, resolver.options.lineLimit = some bound →
      (Text.byteLines content).length ≤ bound) :
    (∀ marker, language.markers.line = some marker →
      Text.byteLines content = (header.lineComments marker).map Text.encode →
        ∃ record, (resolver.resolve files path).result = .ok record ∧
          header.IsStatedIn record) ∧
      ∀ block, language.markers.block = some block →
        (∀ marker, language.markers.line = some marker →
          Text.startsWith block.opening marker = false) →
        (∀ statement ∈ header, ¬block.closing <:+: statement.value) →
        Text.byteLines content = (header.blockComment block).map Text.encode →
          ∃ record, (resolver.resolve files path).result = .ok record ∧
            header.IsStatedIn record := by
  have beneath := Language.lookup_of_relativeTo placed known
  have resolved := Resolver.result_resolve files resolver placed found
  rcases Resolver.exists_sidecarTags_eq_ok readable with ⟨tags, read⟩
  rw [read] at resolved
  constructor
  · intro marker line written
    rw [contentTags_of_lineComments beneath line written complete] at resolved
    exact ⟨_, resolved, header.isStatedIn_withSource _⟩
  · intro block surrounds different apart written
    rw [contentTags_of_blockComment beneath surrounds different apart written complete]
      at resolved
    exact ⟨_, resolved, header.isStatedIn_withSource _⟩

private def copyrightStatement : Statement where
  key := .row "SPDX-FileCopyrightText" .copyright .line
  value := "\"Alice\" // SPDX-License-Identifier: X".toList
  known := by decide
  oneLine := rfl
  notEmpty := by decide
  trimmed := by decide
  noFeed := by decide
  noNull := by decide

private def licenseStatement : Statement where
  key := .row "SPDX-License-Identifier" .license .line
  value := "MIT".toList
  known := by decide
  oneLine := rfl
  notEmpty := by decide
  trimmed := by decide
  noFeed := by decide
  noNull := by decide

private def shortHeader : Header := [copyrightStatement, licenseStatement]

private def lineHeaderFile : Bytes :=
  Text.encode ((shortHeader.lineComments "//".toList).flatMap fun line => line ++ ['\n'])

private def blockHeaderFile : Bytes :=
  Text.encode ("/*\r\n".toList ++
    " * SPDX-FileCopyrightText: \"Alice\" // SPDX-License-Identifier: X\n".toList ++
    " * SPDX-License-Identifier: MIT\r\n */".toList)

private def headerFiles (content : Bytes) : FileView := fun path =>
  if path = Path.ofText "/r/a.c".toList then .file content
  else .file (Text.encode "SPDX-License-Identifier: X".toList)

private def headerResolver : Resolver where
  root := Path.ofText "/r".toList
  options := ⟨some 4, defaultManifestPath⟩
  manifest := none

private def headerPath : Path := Path.ofText "b/../a.c".toList

/-- One header in line comments and in a block comment. -/
theorem resolve_header_of_c_files :
    (∃ record, (headerResolver.resolve (headerFiles lineHeaderFile) headerPath).result =
        .ok record ∧
      record.licensesInFile = ["MIT".toList] ∧
      record.copyright = some "\"Alice\" // SPDX-License-Identifier: X".toList) ∧
    ∃ record, (headerResolver.resolve (headerFiles blockHeaderFile) headerPath).result =
        .ok record ∧
      record.licensesInFile = ["MIT".toList] ∧
      record.copyright = some "\"Alice\" // SPDX-License-Identifier: X".toList := by
  have placed : Path.relativeTo headerResolver.root headerPath =
      .ok (Path.ofText "a.c".toList) := rfl
  have known : Language.lookup headerPath =
      .ok (Language.slashComments "C" ["c", "h"] [.single, .double]) := rfl
  have found (content : Bytes) : headerFiles content (Path.join headerResolver.root
      (Path.ofText "a.c".toList)) = .file content := rfl
  have law (content : Bytes) (few : (Text.byteLines content).length ≤ 4) :=
    resolve_header (headerFiles content) headerResolver shortHeader placed (found content)
      (fun error => nofun) known (by rintro bound ⟨⟩; exact few)
  constructor
  · have noFeed : '\n' ∉ "//".toList := by decide
    have written := byteLines_lineComments noFeed shortHeader
    obtain ⟨record, resolved, stated⟩ :=
      (law lineHeaderFile (by decide +kernel)).1 "//".toList rfl written
    exact ⟨record, resolved, stated.licenses (by decide), stated.copyright _ rfl⟩
  · have different : ∀ marker, some "//".toList = some marker →
        Text.startsWith "/*".toList marker = false := by
      rintro marker ⟨⟩
      decide
    have apart : ∀ statement ∈ shortHeader, ¬"*/".toList <:+: statement.value := by
      decide +kernel
    obtain ⟨record, resolved, stated⟩ :=
      (law blockHeaderFile (by decide +kernel)).2 ⟨"/*".toList, "*/".toList⟩ rfl different
        apart (by decide +kernel)
    exact ⟨record, resolved, stated.licenses (by decide), stated.copyright _ rfl⟩

end Header

end LicenseSurvey

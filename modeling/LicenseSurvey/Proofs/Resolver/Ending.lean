import LicenseSurvey.Proofs.Resolver.Precedence
import LicenseSurvey.Proofs.Text.Ending

/-! # Line endings in a repository

A manifest, a sidecar and a file may each end their lines with a line feed or with a carriage
return and a line feed. As long as there are no other carriage returns, what is read from them
is the same, although each of them is split into lines in a way of its own.
-/

namespace LicenseSurvey

/-- Two entries that are the same, but for the line endings of a file that has no other
carriage returns. -/
inductive Entry.SameButEndings : Entry → Entry → Prop
  | same (entry : Entry) : SameButEndings entry entry
  | dos {content : Bytes} (noReturn : 13 ∉ content) :
      SameButEndings (.file content) (.file (Text.dosBytes content))

/-! ## Manifests -/

theorem Manifest.parse_dosEndings {document : Text} (noReturn : '\r' ∉ document) :
    parse (Text.dosEndings document) = parse document := by
  rw [parse, parse, Text.paragraphs, Text.paragraphs, Text.unixEndings_dosEndings noReturn]

theorem result_loadManifest (files : FileView) (path : Path) :
    (loadManifest files path).result =
      match files path with
      | .file content =>
          ((Manifest.parse (Text.decode content)).mapError (.invalidManifest path)).map some
      | .unreadable error => .error (.unreadable path error)
      | .directory | .unreachable _ => .ok none := by
  rw [loadManifest]
  cases files path with
  | unreadable | directory | unreachable => rfl
  | file content =>
      simp only [Logged.result_bind]
      cases Manifest.parse (Text.decode content) <;> rfl

namespace Resolver

theorem result_load_eq (files : FileView) (root : Path) (options : ResolverOptions) :
    (load files root options).result =
      (loadManifest files (Path.join root options.manifestPath)).result.map
        fun manifest => { root, options, manifest } := rfl

theorem result_load_of_sameButEndings {files others : FileView} {root : Path}
    {options : ResolverOptions}
    (manifest : (files (Path.join root options.manifestPath)).SameButEndings
      (others (Path.join root options.manifestPath))) :
    (load others root options).result = (load files root options).result := by
  have loaded : (loadManifest others (Path.join root options.manifestPath)).result =
      (loadManifest files (Path.join root options.manifestPath)).result := by
    rw [result_loadManifest, result_loadManifest]
    generalize files (Path.join root options.manifestPath) = entry at manifest
    generalize others (Path.join root options.manifestPath) = other at manifest
    cases manifest with
    | same => rfl
    | dos noReturn =>
        simp only [Text.decode_dosBytes,
          Manifest.parse_dosEndings (Text.noReturn_decode noReturn)]
  rw [result_load_eq, result_load_eq, loaded]

theorem root_of_load {files : FileView} {root : Path} {options : ResolverOptions}
    {resolver : Resolver} (opened : (load files root options).result = .ok resolver) :
    resolver.root = root := by
  rcases map_eq_ok_iff.mp opened with ⟨manifest, -, rfl⟩
  rfl

/-! ## Files -/

theorem isBinary_dosBytes {content : Bytes} (noNull : 0 ∉ content) :
    isBinary (Text.dosBytes content) = isBinary content := by
  have noNullAfter : 0 ∉ Text.dosBytes content := by
    rwa [Text.dosBytes, Text.mem_withReturns_iff (by decide)]
  have plain : ∀ mark ∈ byteOrderMarks ++ binaryMarks, 10 ∉ mark ∧ 13 ∉ mark := by decide
  have begins (marks : List Bytes) (member : marks ⊆ byteOrderMarks ++ binaryMarks) :
      marks.any (fun mark => mark.isPrefixOf (Text.dosBytes content)) =
        marks.any fun mark => mark.isPrefixOf content := by
    rw [Bool.eq_iff_iff, List.any_eq_true, List.any_eq_true]
    apply exists_congr
    intro mark
    apply and_congr_right
    intro among
    obtain ⟨noFeed, noReturn⟩ := plain mark (member among)
    rw [List.isPrefixOf_iff_prefix, List.isPrefixOf_iff_prefix, Text.dosBytes,
      Text.prefix_withReturns_iff noFeed noReturn]
  have null (bytes : Bytes) (without : 0 ∉ bytes) : (bytes.take 1024).contains 0 = false := by
    rw [List.contains_eq_mem, decide_eq_false_iff_not]
    exact fun member => without (List.mem_of_mem_take member)
  rw [isBinary, isBinary, null _ noNull, null _ noNullAfter, begins _ (by simp),
    begins _ (by simp)]

theorem contentTags_dosBytes {content : Bytes} (limit : Option Nat) (relative : Path)
    (noReturn : 13 ∉ content) (noNull : 0 ∉ content) :
    contentTags limit relative (Text.dosBytes content) = contentTags limit relative content := by
  have comments (markers : Markers) : Comment.extract markers limit (Text.dosBytes content) =
      Comment.extract markers limit content := by
    rw [Comment.extract, Comment.extract, Text.sourceLines, Text.sourceLines,
      Text.byteLines_dosBytes noReturn]
  have plain : firstLines limit (Text.decode (Text.dosBytes content)) =
      firstLines limit (Text.decode content) := by
    rw [firstLines, firstLines, Text.lines_decode_dosBytes noReturn]
  simp only [contentTags, isBinary_dosBytes noNull, comments, plain]

theorem sidecarTags_of_sameButEndings {files others : FileView} {absolute : Path}
    (same : (files (Path.sidecar absolute)).SameButEndings (others (Path.sidecar absolute))) :
    sidecarTags others absolute = sidecarTags files absolute := by
  rw [sidecarTags, sidecarTags]
  generalize files (Path.sidecar absolute) = entry at same
  generalize others (Path.sidecar absolute) = other at same
  cases same with
  | same => rfl
  | dos noReturn => simp only [Text.lines_decode_dosBytes noReturn]

/-- What a path leads to beneath a root, and the sidecar beside it, are the same in two trees
but for line endings. A file has no nulls, because only the first bytes are searched for
them, and carriage returns push a null away from the front. -/
structure SeesSameButEndings (root path : Path) (files others : FileView) : Prop where
  own : ∀ relative, Path.relativeTo root path = .ok relative →
    (files (Path.join root relative)).SameButEndings (others (Path.join root relative))
  noNull : ∀ relative, Path.relativeTo root path = .ok relative →
    ∀ content, files (Path.join root relative) = .file content → 0 ∉ content
  beside : ∀ relative, Path.relativeTo root path = .ok relative →
    (files (Path.sidecar (Path.join root relative))).SameButEndings
      (others (Path.sidecar (Path.join root relative)))

theorem exists_result_resolve_eq {files others : FileView} {resolver : Resolver} {path : Path}
    (same : SeesSameButEndings resolver.root path files others) :
    ∃ checksum, (resolver.resolve others path).result =
      (resolver.resolve files path).result.map fun record => { record with checksum } := by
  cases placed : Path.relativeTo resolver.root path with
  | error reason => exact ⟨[], by simp [resolve, placed, Except.map]⟩
  | ok relative =>
      have beside := sidecarTags_of_sameButEndings (same.beside relative placed)
      have noNull := same.noNull relative placed
      have own := same.own relative placed
      generalize found : files (Path.join resolver.root relative) = entry at own noNull
      generalize otherFound : others (Path.join resolver.root relative) = other at own
      cases own with
      | dos noReturn =>
          exact ⟨_, result_resolve_of_same_tags rfl rfl placed found otherFound beside
            (contentTags_dosBytes _ relative noReturn (noNull _ rfl))⟩
      | same =>
          cases entry with
          | file content =>
              exact ⟨_, result_resolve_of_same_tags rfl rfl placed found otherFound beside rfl⟩
          | unreadable | directory | unreachable =>
              exact ⟨[], by simp [resolve, placed, found, otherFound, Entry.content, Except.map]⟩

/-- Two trees that differ in the line endings of the manifest, of a file and of its sidecar, or
of some of them, have the same manifest or the same failure to read it, and the file has the
same record in both, but for the checksum, or no record for the same reason. -/
theorem resolve_dosEndings {files others : FileView} {root path : Path}
    {options : ResolverOptions}
    (manifest : (files (Path.join root options.manifestPath)).SameButEndings
      (others (Path.join root options.manifestPath)))
    (same : SeesSameButEndings root path files others) :
    (load others root options).result = (load files root options).result ∧
      ∀ resolver, (load files root options).result = .ok resolver →
        ∃ checksum, (resolver.resolve others path).result =
          (resolver.resolve files path).result.map fun record => { record with checksum } := by
  refine ⟨result_load_of_sameButEndings manifest, ?_⟩
  intro resolver opened
  rw [← root_of_load opened] at same
  exact exists_result_resolve_eq same

private def unixRoot : Path := Path.ofText "/r".toList

private def unixPath : Path := Path.ofText "a.c".toList

private def unixTree : FileView := fun path =>
  if path = Path.ofText "/r/.reuse/dep5".toList then
    .file (Text.encode "Format: 1\n\nFiles: *\nCopyright: A\n .\n B\n".toList)
  else if path = Path.ofText "/r/a.c".toList then
    .file (Text.encode "/*\n * SPDX-License-Identifier: X".toList ++ 0xC3 ::
      Text.encode "\n */\n".toList)
  else .file (Text.encode "SPDX-FileComment: a\n\nb\n".toList)

private def dosTree : FileView := fun path =>
  match unixTree path with
  | .file content => .file (Text.dosBytes content)
  | entry => entry

private def endingResolver : Resolver where
  root := unixRoot
  options := ⟨none, defaultManifestPath⟩
  manifest := some
    { header := ⟨"1".toList, none, [], none, none, none, none, none⟩
      stanzas := [⟨["*".toList], some "A\n\nB".toList, none, none, none⟩] }

/-- All three files are written with the other endings. -/
theorem resolve_dosEndings_of_three_files :
    (load unixTree unixRoot ⟨none, defaultManifestPath⟩).result = .ok endingResolver ∧
      (load dosTree unixRoot ⟨none, defaultManifestPath⟩).result = .ok endingResolver ∧
      dosTree (Path.join unixRoot unixPath) ≠ unixTree (Path.join unixRoot unixPath) ∧
      ∃ checksum, (endingResolver.resolve dosTree unixPath).result =
        (endingResolver.resolve unixTree unixPath).result.map
          fun record => { record with checksum } := by
  have placed : Path.relativeTo unixRoot unixPath = .ok unixPath := rfl
  have loaded : (load unixTree unixRoot ⟨none, defaultManifestPath⟩).result =
      .ok endingResolver := rfl
  have same : SeesSameButEndings unixRoot unixPath unixTree dosTree := by
    constructor
    · intro relative equal
      obtain rfl := Except.ok.inj (placed.symm.trans equal)
      exact .dos (by decide +kernel)
    · intro relative equal content found
      obtain rfl := Except.ok.inj (placed.symm.trans equal)
      rw [← Entry.file.inj found]
      decide +kernel
    · intro relative equal
      obtain rfl := Except.ok.inj (placed.symm.trans equal)
      exact .dos (by decide +kernel)
  obtain ⟨sameManifest, sameRecord⟩ :=
    @resolve_dosEndings unixTree dosTree unixRoot unixPath ⟨none, defaultManifestPath⟩
      (.dos (by decide +kernel)) same
  exact ⟨loaded, sameManifest.trans loaded, by decide +kernel, sameRecord _ loaded⟩

end Resolver

end LicenseSurvey

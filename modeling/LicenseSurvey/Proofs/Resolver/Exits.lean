import LicenseSurvey.Proofs.Resolver.Precedence

/-! # Where resolving can fail

A file is resolved in steps, and many of them could fail by themselves: the path may lead
out of the root, the file and its sidecar are read, the file is opened once more for its
comments, and each comment is read in turn. With an exit at every such step the result is
the same, and most exits are never taken: resolving fails only for a path that is misplaced,
that names no file to be read, or beside which there is a sidecar that cannot be read.
-/

namespace LicenseSurvey

/-! ## Regular files -/

def FileTree.NamesFile (tree : FileTree) (workingDirectory : List Bytes) (path : Path) : Prop :=
  ∃ place content, tree.locate workingDirectory path = .ok place ∧
    tree.at? place = some (.file content)

def FileTree.IsOpen (tree : FileTree) : Prop :=
  ∀ place, tree.at? place ≠ some .lockedFile ∧ tree.at? place ≠ some .lockedDirectory

theorem FileTree.isOpen_file (content : Bytes) : (FileTree.file content).IsOpen := by
  intro place
  cases place with
  | nil => simp [at?]
  | cons name rest => simp [at?, child?]

theorem FileTree.isOpen_directory {entries : List (Bytes × FileTree)}
    (each : ∀ entry ∈ entries, entry.2.IsOpen) : (FileTree.directory entries).IsOpen := by
  intro place
  cases place with
  | nil => simp [at?]
  | cons name rest =>
      simp only [at?, child?]
      cases found : entries.find? fun entry => entry.1 = name with
      | none => simp
      | some entry => exact each entry (List.mem_of_find?_eq_some found) rest

theorem FileTree.namesFile_iff {tree : FileTree} {workingDirectory : List Bytes} {path : Path} :
    tree.NamesFile workingDirectory path ↔
      ∃ content, tree.view workingDirectory path = .file content := by
  rw [NamesFile, view]
  cases tree.locate workingDirectory path with
  | error error => simp
  | ok place =>
      simp only [entryAt?]
      cases held : tree.at? place with
      | none => simp [held]
      | some node => cases node <;> simp [held, entry]

theorem FileTree.IsOpen.view_ne_unreadable {tree : FileTree} (unlocked : tree.IsOpen)
    (workingDirectory : List Bytes) (path : Path) (error : AccessError) :
    tree.view workingDirectory path ≠ .unreadable error := by
  rw [view]
  cases tree.locate workingDirectory path with
  | error error => simp
  | ok place =>
      simp only [entryAt?]
      cases held : tree.at? place with
      | none => simp
      | some node =>
          cases node with
          | lockedFile => exact absurd held (unlocked place).1
          | file | directory | lockedDirectory => simp [entry]

/-! ## Steps with an exit -/

def readAt (files : FileView) (path : Path) : Except Failure Bytes :=
  (files path).content.mapError (.unreadable path)

def openComments (files : FileView) (path : Path) (markers : Markers) (limit : Option Nat) :
    Except Failure (List (Except AccessError Comment)) :=
  match files path with
  | .unreadable error | .unreachable error => .error (.unopened path error)
  | .directory => .ok (if limit = some 0 then [] else [.error .isDirectory])
  | .file content => .ok ((Comment.extract markers limit content).map .ok)

/-- To search a file for comments is to look up its language and to open it. -/
theorem commentsOf_eq (files : FileView) (path : Path) (limit : Option Nat) :
    commentsOf files path limit =
      ((Language.lookup path).mapError .noLanguage).bind fun language =>
        openComments files path language.markers limit := by
  rw [commentsOf]
  cases Language.lookup path <;> rfl

namespace Resolver

def readSidecarTags (files : FileView) (absolute : Path) : Except Failure (List LicensingTag) :=
  if (files (Path.sidecar absolute)).isFile then do
    let content ← readAt files (Path.sidecar absolute)
    return LicensingTag.ofLines (Text.lines (Text.decode content))
  else
    return []

def readContentTags (files : FileView) (limit : Option Nat) (relative absolute : Path)
    (content : Bytes) : Except Failure (List LicensingTag) :=
  if isBinary content then
    return []
  else
    match Language.lookup relative with
    | .ok language => do
        let items ← openComments files absolute language.markers limit
        let comments ← items.mapM fun item => item.mapError (.unreadable absolute)
        return comments.flatMap fun comment => LicensingTag.ofLines comment.textLines
    | .error _ => return LicensingTag.ofLines (firstLines limit (Text.decode content))

def resolveStepwise (files : FileView) (resolver : Resolver) (path : Path) :
    Except Failure FileRecord := do
  let relative ← (Path.relativeTo resolver.root path).mapError .misplaced
  let absolute := Path.join resolver.root relative
  let content ← readAt files absolute
  let record := FileRecord.initial ("./".toList ++ Path.slashed relative) content
  let record := applyManifest resolver.manifest (Path.slashed relative) record
  let besideTags ← readSidecarTags files absolute
  let ownTags ← readContentTags files resolver.options.lineLimit relative absolute content
  return (record.withSource besideTags).withSource ownTags

/-! ## Exits that are never taken -/

variable {files : FileView}

theorem readSidecarTags_eq (files : FileView) (absolute : Path) :
    readSidecarTags files absolute = sidecarTags files absolute := by
  rw [readSidecarTags, readAt, sidecarTags]
  cases files (Path.sidecar absolute) <;> rfl

theorem mapM_mapError_ok (comments : List Comment) (toFailure : AccessError → Failure) :
    (comments.map Except.ok).mapM (fun item => Except.mapError toFailure item) =
      .ok comments := by
  induction comments with
  | nil => rfl
  | cons comment comments induction =>
      rw [List.map_cons, List.mapM_cons, induction]
      rfl

theorem readContentTags_eq {absolute : Path} {content : Bytes}
    (found : files absolute = .file content) (limit : Option Nat) (relative : Path) :
    readContentTags files limit relative absolute content =
      .ok (contentTags limit relative content) := by
  rw [readContentTags, contentTags]
  by_cases binary : isBinary content = true
  · rw [if_pos binary, if_pos binary]
    rfl
  · rw [if_neg binary, if_neg binary]
    cases Language.lookup relative with
    | error error => rfl
    | ok language =>
        have opened : openComments files absolute language.markers limit =
            .ok ((Comment.extract language.markers limit content).map .ok) := by
          rw [openComments, found]
        have read := mapM_mapError_ok (Comment.extract language.markers limit content)
          (.unreadable absolute)
        simp only [opened, bind, Except.bind, read]
        rfl

theorem result_resolve_eq (files : FileView) (resolver : Resolver) (path : Path) :
    (resolver.resolve files path).result = resolver.resolveStepwise files path := by
  rw [resolveStepwise]
  cases placed : Path.relativeTo resolver.root path with
  | error reason => simp [resolve, placed, bind, Except.bind]
  | ok relative =>
      cases found : files (Path.join resolver.root relative) with
      | unreadable | directory | unreachable =>
          simp [resolve, placed, found, readAt, Entry.content, bind, Except.bind]
      | file content =>
          rw [result_resolve files resolver placed found]
          simp only [mapError_ok, readAt, found, Entry.content, bind, Except.bind,
            readSidecarTags_eq, readContentTags_eq found]
          cases sidecarTags files (Path.join resolver.root relative) <;> rfl

/-! ## Exits that are taken -/

theorem sidecarTags_eq_error_iff {absolute : Path} {failure : Failure} :
    sidecarTags files absolute = .error failure ↔
      ∃ error, files (Path.sidecar absolute) = .unreadable error ∧
        failure = .unreadable (Path.sidecar absolute) error := by
  rw [sidecarTags]
  cases files (Path.sidecar absolute) <;> simp [eq_comm]

/-- Why a path has no record: it has no place beneath the root, there is no content at its
place, or the content of its sidecar is not to be had. -/
theorem result_resolve_eq_error_iff (files : FileView) (resolver : Resolver) (path : Path)
    (failure : Failure) :
    (resolver.resolve files path).result = .error failure ↔
      (∃ reason, Path.relativeTo resolver.root path = .error reason ∧
        failure = .misplaced reason) ∨
      ∃ relative, Path.relativeTo resolver.root path = .ok relative ∧
        let absolute := Path.join resolver.root relative
        (∃ error, (files absolute).content = .error error ∧
          failure = .unreadable absolute error) ∨
        ∃ content error, (files absolute).content = .ok content ∧
          files (Path.sidecar absolute) = .unreadable error ∧
          failure = .unreadable (Path.sidecar absolute) error := by
  cases placed : Path.relativeTo resolver.root path with
  | error reason => simp [resolve, placed, eq_comm]
  | ok relative =>
      cases found : files (Path.join resolver.root relative) with
      | file content =>
          rw [result_resolve files resolver placed found, map_eq_error_iff,
            sidecarTags_eq_error_iff]
          simp [found, Entry.content]
      | unreadable | directory | unreachable =>
          simp [resolve, placed, found, Entry.content, eq_comm]

/-- A path has a record exactly when it has a place beneath the root, a file that can be read
stands there, and no file that cannot be read stands beside it. Neither what is in the file,
nor its language, its sidecar, the manifest or the line limit is asked, although each is read
by a step with an exit of its own. In a tree in which nothing is locked the file itself is
all that counts. -/
theorem exists_record_iff (tree : FileTree) (workingDirectory : List Bytes) (resolver : Resolver)
    (path : Path) :
    let files := tree.view workingDirectory
    ((∃ record, (resolver.resolve files path).result = .ok record) ↔
      ∃ relative, Path.relativeTo resolver.root path = .ok relative ∧
        tree.NamesFile workingDirectory (Path.join resolver.root relative) ∧
        ∀ error, files (Path.sidecar (Path.join resolver.root relative)) ≠ .unreadable error) ∧
    (tree.IsOpen → ((∃ record, (resolver.resolve files path).result = .ok record) ↔
      ∃ relative, Path.relativeTo resolver.root path = .ok relative ∧
        tree.NamesFile workingDirectory (Path.join resolver.root relative))) ∧
    (resolver.resolve files path).result = resolver.resolveStepwise files path ∧
    ∀ failure, (resolver.resolve files path).result = .error failure ↔
      (∃ reason, Path.relativeTo resolver.root path = .error reason ∧
        failure = .misplaced reason) ∨
      ∃ relative, Path.relativeTo resolver.root path = .ok relative ∧
        let absolute := Path.join resolver.root relative
        (∃ error, (files absolute).content = .error error ∧
          failure = .unreadable absolute error) ∨
        ∃ content error, (files absolute).content = .ok content ∧
          files (Path.sidecar absolute) = .unreadable error ∧
          failure = .unreadable (Path.sidecar absolute) error := by
  intro files
  have resolves : (∃ record, (resolver.resolve files path).result = .ok record) ↔
      ∃ relative, Path.relativeTo resolver.root path = .ok relative ∧
        tree.NamesFile workingDirectory (Path.join resolver.root relative) ∧
        ∀ error, files (Path.sidecar (Path.join resolver.root relative)) ≠ .unreadable error := by
    constructor
    · rintro ⟨record, resolved⟩
      rcases exists_sources_of_resolve resolved with ⟨relative, content, beside, placed, found,
        read, -⟩
      refine ⟨relative, placed, FileTree.namesFile_iff.mpr ⟨content, found⟩, ?_⟩
      intro error keptBack
      rw [sidecarTags_eq_error_iff.mpr ⟨error, keptBack, rfl⟩] at read
      cases read
    · rintro ⟨relative, placed, named, readable⟩
      rcases FileTree.namesFile_iff.mp named with ⟨content, found⟩
      rcases exists_sidecarTags_eq_ok readable with ⟨tags, read⟩
      rw [result_resolve files resolver placed found, read]
      exact ⟨_, rfl⟩
  refine ⟨resolves, ?_, result_resolve_eq files resolver path,
    result_resolve_eq_error_iff files resolver path⟩
  intro unlocked
  rw [resolves]
  apply exists_congr
  intro relative
  apply and_congr_right
  intro placed
  exact and_iff_left (unlocked.view_ne_unreadable workingDirectory _)

private def openTree : FileTree :=
  .directory [(Path.ofText "a.c".toList, .file []),
    (Path.ofText "a.c.license".toList, .directory [])]

private theorem isOpen_openTree : openTree.IsOpen := by
  apply FileTree.isOpen_directory
  simp only [List.forall_mem_cons]
  exact ⟨FileTree.isOpen_file [], FileTree.isOpen_directory (List.forall_mem_nil _),
    List.forall_mem_nil _⟩

/-- A file that is empty, with a directory in the place of its sidecar. -/
theorem exists_record_iff_of_open_tree :
    let resolver : Resolver := ⟨Path.ofText "/".toList, ⟨none, defaultManifestPath⟩, none⟩
    openTree.IsOpen ∧
      ∃ record, (resolver.resolve (openTree.view []) (Path.ofText "a.c".toList)).result =
        .ok record := by
  intro resolver
  have resolves := (exists_record_iff openTree [] resolver (Path.ofText "a.c".toList)).2.1
  refine ⟨isOpen_openTree, (resolves isOpen_openTree).mpr ?_⟩
  exact ⟨Path.ofText "a.c".toList, rfl, [Path.ofText "a.c".toList], [], rfl, rfl⟩

end Resolver

end LicenseSurvey

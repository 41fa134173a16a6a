import LicenseSurvey.Comment.Extraction
import LicenseSurvey.Record.Reading
import LicenseSurvey.Resolver.Event

/-! # Resolving a file

The record of a file is written by up to three sources in turn: the stanza of the
manifest that governs the file, the sidecar beside it, and the file itself. A file
in a known language speaks in its comments, any other file of text in all of its
lines, and a binary file not at all.
-/

namespace LicenseSurvey

/-! ## Binary content -/

def byteOrderMarks : List Bytes :=
  [[0xEF, 0xBB, 0xBF], [0x00, 0x00, 0xFE, 0xFF], [0xFF, 0xFE, 0x00, 0x00],
    [0xFE, 0xFF], [0xFF, 0xFE]]

def binaryMarks : List Bytes := [[0x25, 0x50, 0x44, 0x46], [0x89, 0x50, 0x4E, 0x47]]

/-- Whether content is not text. A byte order mark makes it text; else a null
among the first 1024 bytes or the mark of a binary format makes it binary. -/
def isBinary (content : Bytes) : Bool :=
  !byteOrderMarks.any (fun mark => mark.isPrefixOf content) &&
    ((content.take 1024).contains 0 ||
      binaryMarks.any fun mark => mark.isPrefixOf content)

/-! ## Opening a repository -/

structure ResolverOptions where
  /-- How many lines of a file are searched for tags, if not all. -/
  lineLimit : Option Nat
  /-- Where the manifest is, seen from the root. -/
  manifestPath : Path
deriving DecidableEq, Repr

def defaultManifestPath : Path := Path.ofText ".reuse/dep5".toList

structure Resolver where
  root : Path
  options : ResolverOptions
  /-- The manifest as it was when the repository was opened. -/
  manifest : Option Manifest
deriving DecidableEq, Repr

def loadManifest (files : FileView) (path : Path) :
    Logged (Except Failure (Option Manifest)) :=
  match files path with
  | .file content => do
      let document := Text.decode content
      Logged.tell ((Manifest.notices document).map .manifestNotice)
      match Manifest.parse document with
      | .error error => return .error (.invalidManifest path error)
      | .ok manifest =>
          Logged.tell [.manifestLoaded path manifest.stanzas.length]
          return .ok (some manifest)
  | .unreadable error => return .error (.unreadable path error)
  | .directory | .unreachable _ => do
      Logged.tell [.noManifest path]
      return .ok none

namespace Resolver

def load (files : FileView) (root : Path) (options : ResolverOptions) :
    Logged (Except Failure Resolver) := do
  let manifest ← loadManifest files (Path.join root options.manifestPath)
  return manifest.map fun manifest => { root, options, manifest }

/-! ## Sources -/

def skipEvents (recordPath : Text) (ignoring : Bool) (tags : List LicensingTag) :
    List Event :=
  (LicensingTag.skipped ignoring tags).map fun label => .tagSkipped recordPath label

def applyTags (tags : List LicensingTag) (record : FileRecord) : Logged FileRecord := do
  Logged.tell (skipEvents record.path false tags)
  return record.withSource tags

def commentEvents (path : Path) (recordPath : Text) :
    (ignoring : Bool) → List (Comment × List LicensingTag) → List Event
  | _, [] => []
  | ignoring, (comment, tags) :: later =>
      .comment path comment.startLine comment.endLine ::
        (skipEvents recordPath ignoring tags ++
          commentEvents path recordPath (LicensingTag.ignoringAfter ignoring tags) later)

def applyComments (path : Path) (comments : List Comment) (record : FileRecord) :
    Logged FileRecord := do
  let tagged := comments.map fun comment =>
    (comment, LicensingTag.ofLines comment.textLines)
  Logged.tell (commentEvents path record.path false tagged)
  return record.withSource (tagged.flatMap Prod.snd)

def firstLines (limit : Option Nat) (text : Text) : List Text :=
  (limit.map (Text.lines text).take).getD (Text.lines text)

def applyManifest (manifest : Option Manifest) (relative : Text) (record : FileRecord) :
    FileRecord :=
  match manifest with
  | none => record
  | some manifest =>
      match manifest.stanzaFor? relative with
      | none => record
      | some stanza => record.withStanza manifest.header stanza

def applySidecar (path : Path) (sidecar : Entry) (record : FileRecord) :
    Logged (Except Failure FileRecord) :=
  match sidecar with
  | .file content => do
      let tags := LicensingTag.ofLines (Text.lines (Text.decode content))
      return .ok (← applyTags tags record)
  | .unreadable error => return .error (.unreadable path error)
  | .directory | .unreachable _ => return .ok record

def applyContent (limit : Option Nat) (relative absolute : Path) (content : Bytes)
    (record : FileRecord) : Logged FileRecord := do
  if isBinary content then
    Logged.tell [.binaryContent record.path]
    return record
  match Language.lookup relative with
  | .ok language =>
      applyComments absolute (Comment.extract language.markers limit content) record
  | .error error =>
      Logged.tell [.plainText error]
      applyTags (LicensingTag.ofLines (firstLines limit (Text.decode content))) record

/-! ## Files -/

def recordOf (resolver : Resolver) (relative absolute : Path) (content : Bytes)
    (sidecar : Entry) : Logged (Except Failure FileRecord) := do
  let relativeText := Path.slashed relative
  let record := FileRecord.initial ("./".toList ++ relativeText) content
  let record := applyManifest resolver.manifest relativeText record
  match ← applySidecar (Path.sidecar absolute) sidecar record with
  | .error failure => return .error failure
  | .ok record =>
      return .ok
        (← applyContent resolver.options.lineLimit relative absolute content record)

def resolve (files : FileView) (resolver : Resolver) (path : Path) :
    Logged (Except Failure FileRecord) :=
  match Path.relativeTo resolver.root path with
  | .error reason => return .error (.misplaced reason)
  | .ok relative => do
      let absolute := Path.join resolver.root relative
      match (files absolute).content with
      | .error error => return .error (.unreadable absolute error)
      | .ok content =>
          resolver.recordOf relative absolute content (files (Path.sidecar absolute))

end Resolver

/-! ## Comments of a file -/

def commentsOf (files : FileView) (path : Path) (limit : Option Nat) :
    Except Failure (List (Except AccessError Comment)) :=
  match Language.lookup path with
  | .error error => .error (.noLanguage error)
  | .ok language =>
      match files path with
      | .unreadable error | .unreachable error => .error (.unopened path error)
      | .directory => .ok (if limit = some 0 then [] else [.error .isDirectory])
      | .file content => .ok ((Comment.extract language.markers limit content).map .ok)

end LicenseSurvey

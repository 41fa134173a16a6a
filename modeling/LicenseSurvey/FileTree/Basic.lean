import LicenseSurvey.Path

/-! # File trees

A file tree holds files in directories under one root. A path is looked up from
the root, or from a working directory when it is relative, one name at a time;
`..` leads back to the directory above. The answers are those of a system that
refuses names of more than 255 bytes and knows no links. Files and directories
may be locked: a locked file can be found but neither read nor written, and no
step leads on from a locked directory.
-/

namespace LicenseSurvey

inductive AccessError where
  | notFound
  | denied
  | notDirectory
  | isDirectory
  | nameTooLong
  | nullCharacter
  /-- A failure that file trees do not have. -/
  | other (message : Text)
deriving DecidableEq, Repr

def AccessError.message : AccessError → Text
  | .notFound => "No such file or directory (os error 2)".toList
  | .denied => "Permission denied (os error 13)".toList
  | .notDirectory => "Not a directory (os error 20)".toList
  | .isDirectory => "Is a directory (os error 21)".toList
  | .nameTooLong => "File name too long (os error 36)".toList
  | .nullCharacter => "file name contained an unexpected NUL byte".toList
  | .other message => message

inductive Entry where
  | file (content : Bytes)
  /-- A file is there, but its content is not to be had. -/
  | unreadable (error : AccessError)
  | directory
  | unreachable (error : AccessError)
deriving DecidableEq, Repr

namespace Entry

def content : Entry → Except AccessError Bytes
  | .file content => .ok content
  | .unreadable error => .error error
  | .directory => .error .isDirectory
  | .unreachable error => .error error

def isFile : Entry → Bool
  | .file _ | .unreadable _ => true
  | .directory | .unreachable _ => false

end Entry

inductive FileTree where
  | file (content : Bytes)
  | lockedFile
  | directory (entries : List (Bytes × FileTree))
  | lockedDirectory

abbrev FileView := Path → Entry

namespace FileTree

def empty : FileTree := .directory []

/-! ## Places

A place is the list of names that lead to it from the root.
-/

def child? (tree : FileTree) (name : Bytes) : Option FileTree :=
  match tree with
  | .directory entries => (entries.find? fun entry => entry.1 = name).map Prod.snd
  | .file _ | .lockedFile | .lockedDirectory => none

def at? (tree : FileTree) : (place : List Bytes) → Option FileTree
  | [] => some tree
  | name :: rest => (tree.child? name).bind fun child => child.at? rest

def entry : FileTree → Entry
  | .file content => .file content
  | .lockedFile => .unreadable .denied
  | .directory _ => .directory
  | .lockedDirectory => .unreachable .denied

def entryAt? (tree : FileTree) (place : List Bytes) : Option Entry :=
  (tree.at? place).map entry

def isDirectoryAt (tree : FileTree) (place : List Bytes) : Bool :=
  tree.entryAt? place = some .directory

def obstacle? (tree : FileTree) (place : List Bytes) : Option AccessError :=
  match tree.entryAt? place with
  | some .directory => none
  | some (.unreachable error) => some error
  | _ => some .notDirectory

/-! ## Looking up -/

def nameLimit : Nat := 255

def pathLimit : Nat := 4096

/-- The pieces of a path that a lookup goes through. A slash at the end asks for
a directory, and so is followed by one more step to the same place. -/
def steps (path : Path) : List Bytes :=
  let pieces := Text.splitBy (· == Path.slash) path
  pieces.dropLast.filter (!·.isEmpty) ++
    [if pieces.getLast? = some [] then [Path.dot] else pieces.getLast?.getD []]

def follow (tree : FileTree) (place : List Bytes) :
    (steps : List Bytes) → Except AccessError (List Bytes)
  | [] => .ok place
  | step :: rest =>
      match tree.obstacle? place with
      | some error => .error error
      | none =>
          if step = [Path.dot] then follow tree place rest
          else if step = [Path.dot, Path.dot] then follow tree place.dropLast rest
          else if nameLimit < step.length then .error .nameTooLong
          else if (tree.at? (place ++ [step])).isNone then .error .notFound
          else follow tree (place ++ [step]) rest

def startOf (workingDirectory : List Bytes) (path : Path) : List Bytes :=
  if path.isAbsolute then [] else workingDirectory

def nameless? (path : Path) : Option AccessError :=
  if 0 ∈ path then some .nullCharacter
  else if path = [] then some .notFound
  else none

def unusable? (path : Path) : Option AccessError :=
  (nameless? path).or (if pathLimit ≤ path.length then some .nameTooLong else none)

def locate (tree : FileTree) (workingDirectory : List Bytes) (path : Path) :
    Except AccessError (List Bytes) :=
  match unusable? path with
  | some error => .error error
  | none => tree.follow (startOf workingDirectory path) (steps path)

def view (tree : FileTree) (workingDirectory : List Bytes) : FileView := fun path =>
  match tree.locate workingDirectory path with
  | .error error => .unreachable error
  | .ok place => (tree.entryAt? place).getD (.unreachable .notFound)

def pathOf (place : List Bytes) : Path := Path.slash :: Path.ofNames place

/-- The absolute path, without `.` and `..`, of what a path names. The steps are
followed one by one, so the path itself may have any length. -/
def canonical (tree : FileTree) (workingDirectory : List Bytes) (path : Path) :
    Except AccessError Path :=
  match nameless? path with
  | some error => .error error
  | none => (tree.follow (startOf workingDirectory path) (steps path)).map pathOf

end FileTree

end LicenseSurvey

import LicenseSurvey.FileTree.Basic

/-! # Changing a file tree

Writing a file makes the directories above it. Creating a file by its path, as a
program does that opens it for writing, makes none, and fails where no file can
be.
-/

namespace LicenseSurvey.FileTree

def entries : FileTree → List (Bytes × FileTree)
  | .directory entries => entries
  | .file _ | .lockedFile | .lockedDirectory => []

def put (name : Bytes) (child : FileTree) :
    List (Bytes × FileTree) → List (Bytes × FileTree)
  | [] => [(name, child)]
  | entry :: rest =>
      if entry.1 = name then (name, child) :: rest else entry :: put name child rest

theorem child?_put (name other : Bytes) (child : FileTree) (held : List (Bytes × FileTree)) :
    (directory (put name child held)).child? other =
      if name = other then some child else (directory held).child? other := by
  induction held with
  | nil => by_cases equal : name = other <;> simp [put, child?, equal]
  | cons entry rest induction =>
      simp only [child?] at induction
      by_cases here : entry.1 = name
      · by_cases equal : name = other <;> simp [put, child?, here, equal]
      · by_cases found : entry.1 = other
        · have different : name ≠ other := fun equal => here (found.trans equal.symm)
          simp [put, child?, here, ← found, Ne.symm here]
        · simp [put, child?, here, found, induction]

def graft (leaf : FileTree) : (place : List Bytes) → FileTree → FileTree
  | [], _ => leaf
  | name :: rest, tree =>
      .directory (put name (graft leaf rest ((tree.child? name).getD empty)) tree.entries)

def write (tree : FileTree) (place : List Bytes) (content : Bytes) : FileTree :=
  graft (.file content) place tree

def makeDirectory (tree : FileTree) (place : List Bytes) : FileTree :=
  if tree.isDirectoryAt place then tree else graft empty place tree

def remove : (place : List Bytes) → FileTree → FileTree
  | [], _ => empty
  | _ :: _, .file content => .file content
  | _ :: _, .lockedFile => .lockedFile
  | _ :: _, .lockedDirectory => .lockedDirectory
  | [name], .directory entries => .directory (entries.filter fun entry => entry.1 ≠ name)
  | name :: next :: rest, .directory entries =>
      match (directory entries).child? name with
      | some child => .directory (put name (remove (next :: rest) child) entries)
      | none => .directory entries

def occupant? (tree : FileTree) (place : List Bytes) : Option AccessError :=
  match tree.at? place with
  | none | some (.file _) => none
  | some .lockedFile => some .denied
  | some (.directory _) | some .lockedDirectory => some .isDirectory

/-- Why a directory does not take a file under a name. A name with a slash behind it
asks for a directory. -/
def refusal? (tree : FileTree) (parent : List Bytes) (name : Bytes) (slashed : Bool) :
    Option AccessError :=
  (tree.obstacle? parent).or
    (if slashed ∨ name = [Path.dot] ∨ name = [Path.dot, Path.dot] then some .isDirectory
    else if nameLimit < name.length then some .nameTooLong
    else tree.occupant? (parent ++ [name]))

def creationPlace (tree : FileTree) (workingDirectory : List Bytes) (path : Path) :
    Except AccessError (List Bytes) :=
  match unusable? path with
  | some error => .error error
  | none =>
      let pieces := Text.splitBy (· == Path.slash) path
      match (pieces.filter (!·.isEmpty)).reverse with
      | [] => .error .isDirectory
      | name :: above =>
          match tree.follow (startOf workingDirectory path) above.reverse with
          | .error error => .error error
          | .ok parent =>
              match tree.refusal? parent name (pieces.getLast? = some []) with
              | some error => .error error
              | none => .ok (parent ++ [name])

end LicenseSurvey.FileTree

import LicenseSurvey.Text.Utf8

/-! # Paths

A path is a string of bytes whose components stand between slashes. Repeated and
final slashes say nothing, and neither does a component `.` that is not the first
of a relative path. Two spellings of one list of components name the same file,
but messages show a path as it was written, so the bytes are kept.

Most paths are the UTF-8 form of a text, but none has to be. What is shown of a
path is a text in which the ill-formed parts are replaced.
-/

namespace LicenseSurvey

abbrev Path := Bytes

namespace Path

def slash : UInt8 := 0x2F

def dot : UInt8 := 0x2E

def ofText (text : Text) : Path := Text.encode text

def text (path : Path) : Text := Text.decode path

/-! ## Components -/

inductive Component where
  /-- The slash in front of an absolute path. -/
  | root
  /-- The component `.` in front of a relative path. -/
  | here
  | above
  | name (bytes : Bytes)
deriving DecidableEq, Repr

def Component.written : Component → Bytes
  | .root => [slash]
  | .here => [dot]
  | .above => [dot, dot]
  | .name bytes => bytes

def isAbsolute (path : Path) : Bool := path.head? == some slash

def stepOfPiece? (piece : Bytes) : Option Component :=
  if piece = [] ∨ piece = [dot] then none
  else if piece = [dot, dot] then some .above
  else some (.name piece)

def components (path : Path) : List Component :=
  let pieces := Text.splitBy (· == slash) path
  let start :=
    if isAbsolute path then [Component.root]
    else if pieces.head? = some [dot] then [Component.here]
    else []
  start ++ pieces.filterMap stepOfPiece?

example : components (ofText "./a//b/./../c/".toList) =
    [.here, .name [0x61], .name [0x62], .above, .name [0x63]] := by decide

example : components (ofText "//a".toList) = [.root, .name [0x61]] := by decide

/-! ## Names -/

def fileName? (path : Path) : Option Bytes :=
  match (components path).getLast? with
  | some (.name bytes) => some bytes
  | _ => none

def extensionOfName? (name : Bytes) : Option Bytes :=
  match name.reverse.dropWhile (· != dot) with
  | [] | [_] => none
  | _ :: _ :: _ => some (name.reverse.takeWhile (· != dot)).reverse

def extension? (path : Path) : Option Bytes := (fileName? path).bind extensionOfName?

example : extension? (ofText "src/a.tar.gz".toList) = some (ofText "gz".toList) ∧
    extension? (ofText "a.".toList) = some [] ∧
    extension? (ofText ".profile".toList) = none := by decide

/-! ## Building paths -/

def join (base path : Path) : Path :=
  if isAbsolute path then path
  else if base = [] ∨ base.getLast? = some slash then base ++ path
  else base ++ slash :: path

def ofNames (names : List Bytes) : Path := [slash].intercalate names

/-- What is shown of the components, with single slashes between them. The root
counts as a component of its own. Names that are shown alike are not told apart. -/
def slashed (path : Path) : Text :=
  Text.join ['/'] ((components path).map fun component => Text.decode component.written)

example : slashed [0x61, 0xFF] = ['a', '\uFFFD'] ∧
    slashed [0x61, 0xFE] = ['a', '\uFFFD'] := by decide

def sidecar (path : Path) : Path := path ++ ofText ".license".toList

/-! ## Paths inside a root -/

inductive Misplaced where
  /-- An absolute path that does not start with the root. -/
  | outside (path root : Path)
  /-- A component `..` that would leave the root. -/
  | escaping (path : Path)
  /-- Nothing is left of the path. -/
  | nameless (path : Path)
deriving DecidableEq, Repr

def Misplaced.message : Misplaced → Text
  | .outside path root =>
      path.text ++ " is outside the repository root ".toList ++ root.text
  | .escaping path => path.text ++ " escapes the repository root".toList
  | .nameless path => path.text ++ " does not name a file".toList

/-- Follow the components from left to right. Each `..` takes back the name
before it, and the walk fails when there is none. -/
def walk : (visited : List Component) → List Component → Option (List Component)
  | visited, [] => some visited
  | visited, .here :: rest => walk visited rest
  | visited, .above :: rest =>
      match visited.getLast? with
      | some (.name _) => walk visited.dropLast rest
      | _ => none
  | _, .root :: rest => walk [.root] rest
  | visited, .name bytes :: rest => walk (visited ++ [.name bytes]) rest

def ofComponents (visited : List Component) : Path :=
  visited.foldl (fun path component => join path component.written) []

def componentsBeneath? : (root path : List Component) → Option (List Component)
  | [], path => some path
  | _ :: _, [] => none
  | expected :: root, component :: path =>
      if expected = component then componentsBeneath? root path else none

theorem componentsBeneath?_eq_some_iff {root path steps : List Component} :
    componentsBeneath? root path = some steps ↔ path = root ++ steps := by
  induction root generalizing path with
  | nil => simp [componentsBeneath?]
  | cons expected root induction =>
      cases path with
      | nil => simp [componentsBeneath?]
      | cons component path =>
          by_cases equal : expected = component
          · simp [componentsBeneath?, equal, induction]
          · simp [componentsBeneath?, equal, Ne.symm equal]

/-- The path seen from `root`, free of `.` and `..`. A relative path is seen from
the root already. -/
def relativeTo (root path : Path) : Except Misplaced Path := do
  let steps ←
    if isAbsolute path then
      match componentsBeneath? (components root) (components path) with
      | some steps => pure steps
      | none => throw (.outside path root)
    else
      pure (components path)
  match walk [] steps with
  | none => throw (.escaping path)
  | some [] => throw (.nameless path)
  | some visited => pure (ofComponents visited)

example : relativeTo (ofText "/repo".toList) (ofText "/repo/./docs/../m.c".toList) =
    .ok (ofText "m.c".toList) := rfl

example : relativeTo (ofText "/repo".toList) (ofText "a/../..".toList) =
    .error (.escaping (ofText "a/../..".toList)) := rfl

end Path

end LicenseSurvey

import LicenseSurvey.Language.Basic

/-! # Comments

A comment keeps, for each of its lines, where in the source line it stands and
what it says there, markers included. Its text without the markers and without a
star in front of each further line is what the tags are read from.
-/

namespace LicenseSurvey

inductive CommentKind where
  | line
  | block
deriving DecidableEq, Repr

structure CommentLine where
  /-- Number of the source line; the first line has number 1. -/
  number : Nat
  /-- Byte position of the first character. -/
  start : Nat
  /-- Byte position behind the last character. -/
  stop : Nat
  text : Text
deriving DecidableEq, Repr

structure Comment where
  kind : CommentKind
  opening : Text
  /-- Empty for a line comment. -/
  closing : Text
  content : List CommentLine
deriving DecidableEq, Repr

namespace Comment

def startLine (comment : Comment) : Nat :=
  (comment.content.head?.map CommentLine.number).getD 0

def endLine (comment : Comment) : Nat :=
  (comment.content.getLast?.map CommentLine.number).getD 0

/-! ## The text without its decoration -/

/-- A further line of a block comment without its blank front and one star. A
line without a star keeps its front, and so does one that closes the comment. -/
def undecorated (closing text : Text) : Text :=
  let body := Text.trimStart text
  if Text.startsWith body closing then text
  else
    match body with
    | '*' :: rest => rest
    | _ => text

/-- One line of the text. The opening marker goes from the first line and the
closing marker from the last. -/
def textLine (comment : Comment) (isFirst isLast : Bool) (text : Text) : Text :=
  let body :=
    if isFirst then Text.withoutFront comment.opening text
    else if comment.kind = .block then undecorated comment.closing text
    else text
  if isLast then Text.withoutBack comment.closing body else body

def textLinesFrom (comment : Comment) : (isFirst : Bool) → List CommentLine → List Text
  | _, [] => []
  | isFirst, [last] => [comment.textLine isFirst true last.text]
  | isFirst, line :: next :: rest =>
      comment.textLine isFirst false line.text ::
        textLinesFrom comment false (next :: rest)

def textLines (comment : Comment) : List Text :=
  comment.textLinesFrom true comment.content

example :
    (Comment.mk .block "/*".toList "*/".toList
      [⟨1, 0, 2, "/*".toList⟩, ⟨2, 0, 6, " * tag".toList⟩, ⟨3, 0, 3, " */".toList⟩]).textLines =
      ["".toList, " tag".toList, " ".toList] := by
  decide

end Comment

end LicenseSurvey

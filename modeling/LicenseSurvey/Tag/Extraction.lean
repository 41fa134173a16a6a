import LicenseSurvey.Tag.Occurrence

/-! # Reading tags

Lines without a key belong to the key in front of them; such lines before the
first key belong to none. So the lines fall into segments, each a key with the
rest of its line and the lines that follow it, and each segment gives at most one
tag.
-/

namespace LicenseSurvey

structure Segment (Label : Type) where
  key : Key Label
  /-- What follows the key in its own line. -/
  rest : Text
  /-- The further lines up to the next key. -/
  further : List Text
deriving DecidableEq, Repr

namespace Segment

def ofLines {Label : Type} (keys : List (Key Label)) :
    List Text → List (Segment Label)
  | [] => []
  | line :: lines =>
      match Key.find? keys line with
      | some found =>
          ⟨found.key, found.after,
            lines.takeWhile fun later => (Key.find? keys later).isNone⟩ :: ofLines keys lines
      | none => ofLines keys lines

/-- The lines of the value, trimmed. The first of them is left out when it is
empty. -/
def trimmedLines {Label : Type} (segment : Segment Label) : List Text :=
  let first := Text.trim segment.rest
  (if first = [] then [] else [first]) ++ segment.further.map Text.trim

def unwrapped (text : Text) : Text :=
  Text.trim (Text.withoutBack "</text>".toList
    (Text.withoutFront "<text>".toList (Text.trim text)))

def nonemptyText? (text : Text) : Option Value :=
  if text = [] then none else some (.text text)

def nonemptyList? (elements : List Text) : Option Value :=
  if elements = [] then none else some (.list elements)

/-- The value of a segment. Only a marker may be without one. -/
def value? {Label : Type} (segment : Segment Label) : Option Value :=
  match segment.key.shape with
  | .line => nonemptyText? (Text.trim segment.rest)
  | .formatted => nonemptyText? (unwrapped (Text.join ['\n'] segment.trimmedLines))
  | .lines => nonemptyList? (segment.trimmedLines.filter (!·.isEmpty))
  | .words => nonemptyList? ((segment.rest :: segment.further).flatMap Text.words)
  | .marker => some (.text [])

def tag? {Label : Type} (segment : Segment Label) : Option (Tag Label) :=
  segment.value?.map fun value => ⟨segment.key.label, value⟩

end Segment

def Tag.ofLines {Label : Type} (keys : List (Key Label)) (lines : List Text) :
    List (Tag Label) :=
  (Segment.ofLines keys lines).filterMap Segment.tag?

end LicenseSurvey

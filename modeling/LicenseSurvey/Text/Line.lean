import LicenseSurvey.Text.Basic

/-! # Lines

A line ends with a line feed, and a carriage return directly before the line
feed belongs to the ending. After the last line feed there is a line only when
something follows it.
-/

namespace LicenseSurvey.Text

def withoutLast {α : Type} [DecidableEq α] (element : α) (elements : List α) : List α :=
  if elements.getLast? = some element then elements.dropLast else elements

/-- The lines of a text. A final line without a line feed keeps a carriage
return at its end. -/
def lines (text : Text) : List Text :=
  let pieces := splitBy (· == '\n') text
  pieces.dropLast.map (withoutLast '\r') ++
    (pieces.getLast?.toList.filter (!·.isEmpty))

example : lines "a\r\n\nb\r".toList = ["a".toList, [], "b\r".toList] := by decide

example : lines "a\n".toList = ["a".toList] := by decide

/-- The lines of a file, still as bytes. Here a carriage return at the end of a
final line without a line feed is dropped too. -/
def byteLines (content : Bytes) : List Bytes :=
  let pieces := splitBy (· == 10) content
  (pieces.dropLast ++ pieces.getLast?.toList.filter (!·.isEmpty)).map (withoutLast 13)

example : byteLines [97, 13, 10, 13] = [[97], []] := by decide

def unixEndings : Text → Text
  | '\r' :: '\n' :: rest => '\n' :: unixEndings rest
  | character :: rest => character :: unixEndings rest
  | [] => []

def splitAtBlankLines : Text → List Text
  | '\n' :: '\n' :: rest => [] :: splitAtBlankLines rest
  | character :: rest =>
      match splitAtBlankLines rest with
      | [] => [[character]]
      | piece :: pieces => (character :: piece) :: pieces
  | [] => [[]]

def paragraphs (text : Text) : List Text :=
  (splitAtBlankLines (unixEndings text)).filter fun piece => !(trim piece).isEmpty

example : paragraphs "a\r\n\r\n \n\nb\nc".toList = ["a".toList, "b\nc".toList] := by
  decide

end LicenseSurvey.Text

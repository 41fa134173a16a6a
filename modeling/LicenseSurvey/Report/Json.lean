import LicenseSurvey.Text.Basic

/-! # JSON

The document format of reports. A document is written with one element or field a
line, two spaces deeper for each level; an empty list or object stays on its line.
-/

namespace LicenseSurvey

/-- A JSON document. Fields keep their order, and a number is its own text. -/
inductive Json where
  | null
  | text (content : Text)
  | number (digits : Text)
  | list (elements : List Json)
  | object (fields : List (Text × Json))

namespace Json

def ofNat (number : Nat) : Json := .number (Nat.toDigits 10 number)

def ofText? : Option Text → Json
  | none => .null
  | some content => .text content

def ofTexts (contents : List Text) : Json := .list (contents.map .text)

def field (name : String) (value : Json) : Text × Json := (name.toList, value)

/-! ## Texts -/

def hexPair (code : Nat) : Text := [Nat.digitChar (code / 16), Nat.digitChar (code % 16)]

def escaped (character : Char) : Text :=
  match character with
  | '"' => "\\\"".toList
  | '\\' => "\\\\".toList
  | '\x08' => "\\b".toList
  | '\t' => "\\t".toList
  | '\n' => "\\n".toList
  | '\x0c' => "\\f".toList
  | '\r' => "\\r".toList
  | other =>
      if other.toNat < 0x20 then "\\u00".toList ++ hexPair other.toNat else [other]

def quote (content : Text) : Text := ['"'] ++ content.flatMap escaped ++ ['"']

/-! ## Documents -/

def newLine (level : Nat) : Text := '\n' :: List.replicate (2 * level) ' '

mutual

def renderAt (level : Nat) : Json → Text
  | .null => "null".toList
  | .text content => quote content
  | .number digits => digits
  | .list [] => ['[', ']']
  | .list (first :: rest) =>
      '[' :: renderElements level (first :: rest) ++ newLine level ++ [']']
  | .object [] => ['\x7b', '\x7d']
  | .object (first :: rest) =>
      '\x7b' :: renderFields level (first :: rest) ++ newLine level ++ ['\x7d']

def renderElements (level : Nat) : List Json → Text
  | [] => []
  | [last] => newLine (level + 1) ++ renderAt (level + 1) last
  | first :: next :: rest =>
      newLine (level + 1) ++ renderAt (level + 1) first ++ [','] ++
        renderElements level (next :: rest)

def renderFields (level : Nat) : List (Text × Json) → Text
  | [] => []
  | [(name, value)] =>
      newLine (level + 1) ++ quote name ++ ": ".toList ++ renderAt (level + 1) value
  | (name, value) :: next :: rest =>
      newLine (level + 1) ++ quote name ++ ": ".toList ++ renderAt (level + 1) value ++
        [','] ++ renderFields level (next :: rest)

end

def render (document : Json) : Text := renderAt 0 document

end Json

end LicenseSurvey

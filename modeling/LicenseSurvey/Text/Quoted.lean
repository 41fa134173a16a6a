import LicenseSurvey.Text.Unseen
import LicenseSurvey.Text.Basic

/-! # Quoted texts

Patterns are shown between double quotes. Quotes, backslashes, line endings, tabs
and the null character have two-character escapes; a character without a shape of
its own is written by its code point in hexadecimal.
-/

namespace LicenseSurvey.Text

def hex (number : Nat) : Text := Nat.toDigits 16 number

def quotedCharacter (character : Char) : Text :=
  match character with
  | '\x00' => "\\0".toList
  | '\t' => "\\t".toList
  | '\r' => "\\r".toList
  | '\n' => "\\n".toList
  | '\\' => "\\\\".toList
  | '"' => "\\\"".toList
  | other =>
      if isUnseen other then
        "\\u\x7b".toList ++ hex other.toNat ++ "\x7d".toList
      else
        [other]

def quoted (text : Text) : Text :=
  ['"'] ++ text.flatMap quotedCharacter ++ ['"']

def quotedList (texts : List Text) : Text :=
  ['['] ++ join ", ".toList (texts.map quoted) ++ [']']

example : quotedList ["a".toList, "\u200B".toList] =
    "[\"a\", \"\\u\x7b200b\x7d\"]".toList := by decide

end LicenseSurvey.Text

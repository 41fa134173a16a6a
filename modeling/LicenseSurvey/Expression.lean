import LicenseSurvey.Record.Basic

/-! # License expressions

An expression joins license identifiers by operators and parentheses. Only its
identifiers matter here, read as words from left to right.
-/

namespace LicenseSurvey.Expression

def isOperator (word : Text) : Bool :=
  ["AND", "OR", "WITH"].any fun operator => Text.sameLetters word operator.toList

def isPlaceholder (word : Text) : Bool :=
  word == FileRecord.noAssertion || word == "NONE".toList

def withoutPlus (word : Text) : Text := (word.reverse.dropWhile (· == '+')).reverse

def isSeparator (character : Char) : Bool :=
  Text.isBlank character || character == '(' || character == ')'

def identifiers (expression : Text) : List Text :=
  ((Text.splitBy isSeparator expression).map withoutPlus).filter fun word =>
    !word.isEmpty && !isOperator word && !isPlaceholder word

example : identifiers "(MIT OR GPL-2.0+) with x".toList =
    ["MIT".toList, "GPL-2.0".toList, "x".toList] := by decide

/-! ## Many expressions -/

def insert (word : Text) : List Text → List Text
  | [] => [word]
  | first :: rest =>
      if Text.precedes word first then word :: first :: rest
      else if word = first then first :: rest
      else first :: insert word rest

@[simp] theorem mem_insert {word other : Text} {sorted : List Text} :
    other ∈ insert word sorted ↔ other = word ∨ other ∈ sorted := by
  induction sorted with
  | nil => simp [insert]
  | cons first rest induction =>
      rw [insert]
      split
      · simp
      · split
        · rename_i equal
          simp [equal]
        · simp [induction, or_left_comm]

def collect (expressions : List Text) : List Text :=
  (expressions.flatMap identifiers).foldl (fun sorted word => insert word sorted) []

end LicenseSurvey.Expression

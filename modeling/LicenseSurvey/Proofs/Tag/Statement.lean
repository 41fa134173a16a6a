import LicenseSurvey.Proofs.Tag.Segment
import LicenseSurvey.Tag.Licensing

/-! # Statements in one line

A statement about licensing is a key whose value is the rest of its line, and such a
value. Written down and read again it gives its tag, whatever stands in the other lines;
and the value may well contain the name of another key.
-/

namespace LicenseSurvey

theorem Text.infix_of_infix_append_cons {pattern left right : Text} {character : Char}
    (inside : pattern <:+: left ++ character :: right) (absent : character ∉ pattern) :
    pattern <:+: left ∨ pattern <:+: right := by
  obtain ⟨before, after, equal⟩ := inside
  rcases List.append_eq_append_iff.mp equal with ⟨common, split, -⟩ | ⟨common, split, behind⟩
  · exact .inl ⟨before, common, split.symm⟩
  · cases common with
    | nil =>
        rw [List.append_nil] at split
        exact .inl ⟨before, [], by rw [split, List.append_nil]⟩
    | cons first common =>
        rw [List.cons_append, List.cons.injEq] at behind
        rw [← behind.1] at split
        rcases List.append_eq_append_iff.mp split with ⟨rest, -, tail⟩ | ⟨rest, -, tail⟩
        · rw [tail] at absent
          exact absurd (List.mem_append_right rest (List.mem_cons_self ..)) absent
        · cases rest with
          | nil =>
              rw [List.nil_append] at tail
              exact absurd (tail ▸ List.mem_cons_self ..) absent
          | cons other rest =>
              rw [List.cons_append, List.cons.injEq] at tail
              refine .inr ⟨rest, after, ?_⟩
              rw [behind.2, tail.2]

/-! ## One line after the other -/

section

variable {Label : Type} {keys : List (Key Label)} {line : Text}

theorem Tag.ofLines_cons_of_line {found : Key.Occurrence Label} {value : Text}
    (present : Key.find? keys line = some found) (oneLine : found.key.shape = .line)
    (trimmed : Text.trim found.after = value) (notEmpty : value ≠ []) (lines : List Text) :
    Tag.ofLines keys (line :: lines) =
      ⟨found.key.label, .text value⟩ :: Tag.ofLines keys lines := by
  have read (further : List Text) :
      Segment.tag? ⟨found.key, found.after, further⟩ =
        some ⟨found.key.label, .text value⟩ := by
    simp [Segment.tag?, Segment.value?, oneLine, Segment.nonemptyText?, trimmed, notEmpty]
  rw [ofLines_cons_of_some present, read, Option.toList_some, List.singleton_append]

end

/-! ## Statements -/

structure Statement where
  key : Key LicensingLabel
  value : Text
  known : key ∈ licensingKeys
  oneLine : key.shape = .line
  notEmpty : value ≠ []
  trimmed : Text.trim value = value
  noFeed : '\n' ∉ value
  noNull : '\x00' ∉ value

namespace Statement

def text (statement : Statement) : Text :=
  statement.key.name ++ ':' :: ' ' :: statement.value

def tag (statement : Statement) : LicensingTag :=
  ⟨statement.key.label, .text statement.value⟩

theorem key_eq (statement : Statement) :
    statement.key = .row "SPDX-License-Identifier" .license .line ∨
      statement.key = .row "SPDX-LicenseInfoInFile" .licenseInFile .line ∨
      statement.key = .row "SPDX-LicenseConcluded" .licenseConcluded .line ∨
      statement.key = .row "SPDX-FileCopyrightText" .copyright .line := by
  have single : ∀ key ∈ licensingKeys, key.shape = .line →
      key = .row "SPDX-License-Identifier" .license .line ∨
        key = .row "SPDX-LicenseInfoInFile" .licenseInFile .line ∨
        key = .row "SPDX-LicenseConcluded" .licenseConcluded .line ∨
        key = .row "SPDX-FileCopyrightText" .copyright .line := by
    decide
  exact single statement.key statement.known statement.oneLine

/-- The key of a statement is found at its front, whatever the value contains. -/
theorem find?_cons_text (statement : Statement) :
    Key.find? licensingKeys (' ' :: statement.text) =
      some ⟨statement.key, [' '], ' ' :: statement.value⟩ := by
  rw [text]
  rcases statement.key_eq with key | key | key | key <;> rw [key] <;> rfl

theorem ofLines_map_text (statements : List Statement) (lines : List Text) :
    LicensingTag.ofLines ((statements.map fun statement => ' ' :: statement.text) ++ lines) =
      statements.map tag ++ LicensingTag.ofLines lines := by
  induction statements with
  | nil => rfl
  | cons statement statements induction =>
      have trimmed : Text.trim (' ' :: statement.value) = statement.value :=
        (Text.trim_cons_blank (by decide) _).trans statement.trimmed
      rw [LicensingTag.ofLines] at induction ⊢
      rw [List.map_cons, List.cons_append,
        Tag.ofLines_cons_of_line statement.find?_cons_text statement.oneLine trimmed
          statement.notEmpty, induction]
      rfl

/-! ## What a statement contains -/

theorem noNull_text (statement : Statement) : '\x00' ∉ statement.text := by
  have named : ∀ key ∈ licensingKeys, '\x00' ∉ key.name := by decide
  simp [text, named statement.key statement.known, statement.noNull]

theorem noFeed_text (statement : Statement) : '\n' ∉ statement.text := by
  have named : ∀ key ∈ licensingKeys, '\n' ∉ key.name := by decide
  simp [text, named statement.key statement.known, statement.noFeed]

theorem getLast?_append_text (front : Text) (statement : Statement) :
    (front ++ statement.text).getLast? ≠ some '\r' := by
  have last : (front ++ statement.text).getLast? = statement.value.getLast? := by
    have split : front ++ statement.text =
        (front ++ statement.key.name ++ [':', ' ']) ++ statement.value := by simp [text]
    rw [split, List.getLast?_append, Option.or_eq_left_of_isSome]
    simpa using statement.notEmpty
  rw [last]
  intro returns
  exact Bool.noConfusion (Text.not_isBlank_of_getLast? statement.trimmed returns)

theorem not_infix_text {closing : Text} (blank : ' ' ∉ closing)
    (keys : ∀ key ∈ licensingKeys, ¬closing <:+: ' ' :: '*' :: ' ' :: (key.name ++ [':']))
    (statement : Statement) (apart : ¬closing <:+: statement.value) :
    ¬closing <:+: ' ' :: '*' :: ' ' :: statement.text := by
  have split : ' ' :: '*' :: ' ' :: statement.text =
      (' ' :: '*' :: ' ' :: (statement.key.name ++ [':'])) ++ ' ' :: statement.value := by
    simp [text]
  rw [split]
  intro inside
  rcases Text.infix_of_infix_append_cons inside blank with front | value
  · exact keys statement.key statement.known front
  · exact apart value

end Statement

end LicenseSurvey

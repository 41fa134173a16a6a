import LicenseSurvey.Proofs.Expression.Identifier
import LicenseSurvey.Proofs.Text.Row

/-! # Expression trees

An expression is a tree with names at its leaves and operators between them. One tree is
written in many ways: the operators in any case, any blanks between two words, and parentheses
around any part. The identifiers are read without the tree, and yet they are its leaves.
-/

namespace LicenseSurvey.Expression

inductive Operator where
  | conjunction
  | disjunction
  | exception

namespace Operator

def word : Operator → Text
  | .conjunction => "and".toList
  | .disjunction => "or".toList
  | .exception => "with".toList

def IsSign (operator : Operator) (sign : Text) : Prop := Text.lower sign = operator.word

instance (operator : Operator) (sign : Text) : Decidable (operator.IsSign sign) :=
  inferInstanceAs (Decidable (Text.lower sign = operator.word))

theorem forall_iff {Holds : Operator → Prop} :
    (∀ operator, Holds operator) ↔
      Holds .conjunction ∧ Holds .disjunction ∧ Holds .exception := by
  constructor
  · intro each
    exact ⟨each .conjunction, each .disjunction, each .exception⟩
  · intro each operator
    cases operator with
    | conjunction => exact each.1
    | disjunction => exact each.2.1
    | exception => exact each.2.2

end Operator

/-- A word that is told apart from operators and parentheses. It may be one that stands for no
license at all. -/
structure IsName (word : Text) : Prop where
  notEmpty : word ≠ []
  notOperator : ∀ operator : Operator, ¬ operator.IsSign word
  noPlusBehind : word.getLast? ≠ some '+'
  plain : ∀ character ∈ word,
    Text.isBlank character = false ∧ character ≠ '(' ∧ character ≠ ')'

instance (word : Text) : Decidable (IsName word) :=
  decidable_of_iff
    (word ≠ [] ∧ (¬ Operator.conjunction.IsSign word ∧ ¬ Operator.disjunction.IsSign word ∧
      ¬ Operator.exception.IsSign word) ∧ word.getLast? ≠ some '+' ∧ word.all (!isSeparator ·))
    ⟨fun ⟨notEmpty, notOperator, noPlusBehind, plain⟩ =>
        ⟨notEmpty, Operator.forall_iff.mpr notOperator, noPlusBehind,
          by simpa [isSeparator_eq_false_iff] using plain⟩,
      fun isName => ⟨isName.notEmpty, Operator.forall_iff.mp isName.notOperator,
        isName.noPlusBehind, by simpa [isSeparator_eq_false_iff] using isName.plain⟩⟩

structure Name where
  word : Text
  isName : IsName word

/-- An expression without the parentheses that show how it is joined. An exception is a name
without a plus sign. -/
inductive Tree where
  | leaf (name : Name) (orLater : Bool)
  | joined (operator : Operator) (left right : Tree)

namespace Tree

def leaves : Tree → List Text
  | .leaf name _ => [name.word]
  | .joined _ left right => left.leaves ++ right.leaves

end Tree

/-- Blanks stand between two texts, and there are some unless a parenthesis keeps the two
apart. -/
structure Apart (left gap right : Text) : Prop where
  blank : ∀ character ∈ gap, Text.isBlank character = true
  kept : gap ≠ [] ∨ left.getLast? = some ')' ∨ right.head? = some '('

/-- The text is a way to write the tree. -/
inductive Tree.IsWritten : Tree → Text → Prop
  | leaf (name : Name) (orLater : Bool) :
      IsWritten (.leaf name orLater) (name.word ++ if orLater then ['+'] else [])
  | joined {operator : Operator} {left right : Tree}
      {leftText before sign behind rightText : Text} (isSign : operator.IsSign sign)
      (leftWritten : left.IsWritten leftText) (rightWritten : right.IsWritten rightText)
      (front : Apart leftText before sign) (back : Apart sign behind rightText) :
      IsWritten (.joined operator left right)
        (leftText ++ before ++ (sign ++ behind ++ rightText))
  | grouped {tree : Tree} {text : Text} (written : tree.IsWritten text) :
      IsWritten tree ('(' :: text ++ [')'])
  | spaced {tree : Tree} {before text behind : Text}
      (blankBefore : ∀ character ∈ before, Text.isBlank character = true)
      (blankBehind : ∀ character ∈ behind, Text.isBlank character = true)
      (written : tree.IsWritten text) : IsWritten tree (before ++ text ++ behind)

/-! ## Separators -/

section

variable {left gap right text : Text} {separator : Char}

theorem isSeparator_of_isBlank (blank : Text.isBlank separator = true) :
    isSeparator separator = true := by
  rw [isSeparator, blank, Bool.true_or, Bool.true_or]

/-- A separator belongs to no identifier, so that those of its two sides are read apart. -/
theorem identifiers_append_cons (separates : isSeparator separator = true) (left right : Text) :
    identifiers (left ++ separator :: right) = identifiers left ++ identifiers right := by
  rw [identifiers, Text.splitBy_append separates, List.map_append, List.filter_append]
  rfl

@[simp] theorem identifiers_nil : identifiers [] = [] := rfl

theorem identifiers_cons (separates : isSeparator separator = true) (text : Text) :
    identifiers (separator :: text) = identifiers text := by
  rw [← List.nil_append (separator :: text), identifiers_append_cons separates, identifiers_nil,
    List.nil_append]

theorem identifiers_concat (separates : isSeparator separator = true) (text : Text) :
    identifiers (text ++ [separator]) = identifiers text := by
  rw [identifiers_append_cons separates, identifiers_nil, List.append_nil]

theorem identifiers_append_of_blank (blank : ∀ character ∈ gap, Text.isBlank character = true)
    (text : Text) : identifiers (gap ++ text) = identifiers text := by
  induction gap with
  | nil => rfl
  | cons first rest induction =>
      rcases List.forall_mem_cons.mp blank with ⟨here, later⟩
      rw [List.cons_append, identifiers_cons (isSeparator_of_isBlank here), induction later]

theorem identifiers_append_append (blank : ∀ character ∈ gap, Text.isBlank character = true)
    (some : gap ≠ []) (left right : Text) :
    identifiers (left ++ gap ++ right) = identifiers left ++ identifiers right := by
  cases gap with
  | nil => exact absurd rfl some
  | cons first rest =>
      rcases List.forall_mem_cons.mp blank with ⟨here, later⟩
      rw [List.append_assoc, List.cons_append,
        identifiers_append_cons (isSeparator_of_isBlank here), identifiers_append_of_blank later]

theorem identifiers_of_append_blank (blank : ∀ character ∈ gap, Text.isBlank character = true)
    (text : Text) : identifiers (text ++ gap) = identifiers text := by
  cases gap with
  | nil => rw [List.append_nil]
  | cons first rest =>
      have apart := identifiers_append_append blank (List.cons_ne_nil first rest) text []
      rwa [List.append_nil, identifiers_nil, List.append_nil] at apart

theorem Apart.append_right (apart : Apart left gap right) (further : Text) :
    Apart left gap (right ++ further) where
  blank := apart.blank
  kept := by
    rcases apart.kept with some | closed | opened
    · exact .inl some
    · exact .inr (.inl closed)
    · exact .inr (.inr (by rw [List.head?_append, opened, Option.some_or]))

theorem Apart.identifiers_eq (apart : Apart left gap right) :
    identifiers (left ++ gap ++ right) = identifiers left ++ identifiers right := by
  by_cases none : gap = []
  · rw [none, List.append_nil]
    rcases apart.kept with some | closed | opened
    · exact absurd none some
    · rcases List.getLast?_eq_some_iff.mp closed with ⟨front, rfl⟩
      rw [identifiers_concat (by decide), List.append_assoc, List.singleton_append,
        identifiers_append_cons (by decide)]
    · rcases List.head?_eq_some_iff.mp opened with ⟨rest, rfl⟩
      rw [identifiers_append_cons (by decide), identifiers_cons (by decide)]
  · exact identifiers_append_append apart.blank none left right

end

/-! ## Operators -/

theorem isSeparator_toLower {character : Char} (separates : isSeparator character = true) :
    isSeparator character.toLower = true := by
  rw [isSeparator, Bool.or_eq_true, Bool.or_eq_true, beq_iff_eq, beq_iff_eq] at separates
  rcases separates with (blank | rfl) | rfl
  · exact isSeparator_of_isBlank (by rw [Text.isBlank_toLower, blank])
  · decide
  · decide

theorem Operator.isOperator_iff {word : Text} :
    isOperator word = true ↔ ∃ operator : Operator, operator.IsSign word := by
  rw [Expression.isOperator_iff, List.mem_cons, List.mem_cons, List.mem_singleton]
  constructor
  · intro letters
    rcases letters with letters | letters | letters
    · exact ⟨.conjunction, letters⟩
    · exact ⟨.disjunction, letters⟩
    · exact ⟨.exception, letters⟩
  · intro sign
    rcases sign with ⟨operator, letters⟩
    cases operator with
    | conjunction => exact .inl letters
    | disjunction => exact .inr (.inl letters)
    | exception => exact .inr (.inr letters)

namespace Operator.IsSign

variable {operator : Operator} {sign : Text}

theorem toLower_mem (isSign : operator.IsSign sign) {character : Char}
    (member : character ∈ sign) : character.toLower ∈ operator.word := by
  rw [← isSign]
  exact List.mem_map_of_mem member

theorem not_isSeparator (isSign : operator.IsSign sign) :
    ∀ character ∈ sign, isSeparator character = false := by
  intro character member
  have letters : operator.word.all (!isSeparator ·) = true := by
    cases operator <;> decide
  have letter : isSeparator character.toLower = false := by
    simpa using List.all_eq_true.mp letters character.toLower (isSign.toLower_mem member)
  by_contra separates
  rw [Bool.not_eq_false] at separates
  exact Bool.noConfusion (letter.symm.trans (isSeparator_toLower separates))

theorem noPlusBehind (isSign : operator.IsSign sign) : sign.getLast? ≠ some '+' := by
  intro plus
  have letters : '+' ∉ operator.word := by
    cases operator <;> decide
  exact letters (isSign.toLower_mem (List.mem_of_getLast? plus))

theorem identifiers_eq (isSign : operator.IsSign sign) : identifiers sign = [] := by
  have plain : ∀ character ∈ sign,
      Text.isBlank character = false ∧ character ≠ '(' ∧ character ≠ ')' :=
    fun character member => isSeparator_eq_false_iff.mp (isSign.not_isSeparator character member)
  have joins : isOperator sign = true := Operator.isOperator_iff.mpr ⟨operator, isSign⟩
  rw [identifiers_of_plain plain, withoutPlus_eq_self isSign.noPlusBehind]
  simp [joins]

end Operator.IsSign

/-! ## Names -/

namespace IsName

variable {word : Text}

theorem isOperator_eq_false (isName : IsName word) : isOperator word = false := by
  rw [← Bool.not_eq_true, Operator.isOperator_iff, not_exists]
  exact isName.notOperator

theorem withoutPlus_eq (isName : IsName word) (orLater : Bool) :
    withoutPlus (word ++ if orLater then ['+'] else []) = word := by
  have alone := withoutPlus_eq_self isName.noPlusBehind
  cases orLater with
  | false => rw [if_neg Bool.false_ne_true, List.append_nil, alone]
  | true =>
      rw [if_pos rfl, withoutPlus_eq_rdropWhile, List.rdropWhile_concat_pos _ _ _ rfl,
        ← withoutPlus_eq_rdropWhile, alone]

theorem identifiers_eq (isName : IsName word) (orLater : Bool) :
    identifiers (word ++ if orLater then ['+'] else []) =
      [word].filter fun word => !isPlaceholder word := by
  have plain : ∀ character ∈ word ++ if orLater then ['+'] else [],
      Text.isBlank character = false ∧ character ≠ '(' ∧ character ≠ ')' := by
    rw [List.forall_mem_append]
    refine ⟨isName.plain, ?_⟩
    cases orLater with
    | false => exact List.forall_mem_nil _
    | true => exact List.forall_mem_singleton.mpr (by decide)
  rw [identifiers_of_plain plain, isName.withoutPlus_eq]
  simp [List.filter_cons, isName.isOperator_eq_false, isName.notEmpty]

end IsName

/-! ## Trees -/

/-- However a tree is written, its leaves are read from left to right. -/
theorem Tree.IsWritten.identifiers_eq {tree : Tree} {text : Text} (written : tree.IsWritten text) :
    identifiers text = tree.leaves.filter fun word => !isPlaceholder word := by
  induction written with
  | leaf name orLater => exact name.isName.identifiers_eq orLater
  | joined isSign _ _ front back leftRead rightRead =>
      rw [(front.append_right _).append_right _ |>.identifiers_eq, back.identifiers_eq,
        isSign.identifiers_eq, List.nil_append, leftRead, rightRead, Tree.leaves,
        List.filter_append]
  | grouped _ read =>
      rw [List.cons_append, identifiers_cons (by decide), identifiers_concat (by decide), read]
  | spaced blankBefore blankBehind _ read =>
      rw [identifiers_of_append_blank blankBehind, identifiers_append_of_blank blankBefore, read]

theorem identifiers_join {words : List Text} (each : ∀ word ∈ words, IsIdentifier word) :
    identifiers (Text.join [' '] words) = words := by
  induction words with
  | nil => rfl
  | cons word words induction =>
      rcases List.forall_mem_cons.mp each with ⟨here, later⟩
      cases words with
      | nil => exact identifiers_of_isIdentifier here
      | cons next rest =>
          rw [Text.join_cons (List.cons_ne_nil next rest),
            identifiers_append_append (List.forall_mem_singleton.mpr rfl) (List.cons_ne_nil ' ' []),
            identifiers_of_isIdentifier here, induction later, List.singleton_append]

/-- The identifiers of an expression are the leaves of its tree without those that stand for
no license at all, and reading them once more changes nothing. -/
theorem identifiers_read_leaves :
    (∀ {tree : Tree} {text : Text}, tree.IsWritten text →
      identifiers text = tree.leaves.filter fun word =>
        word ≠ "NOASSERTION".toList ∧ word ≠ "NONE".toList) ∧
    ∀ expression : Text,
      identifiers (Text.join [' '] (identifiers expression)) = identifiers expression := by
  constructor
  · intro tree text written
    rw [written.identifiers_eq]
    apply List.filter_congr
    intro word _
    rw [Bool.eq_iff_iff, Bool.not_eq_true', ← Bool.not_eq_true, isPlaceholder_iff, not_or,
      decide_eq_true_eq]
  · intro expression
    exact identifiers_join fun word member => isIdentifier_of_mem_identifiers member

theorem identifiers_read_leaves_of_exception :
    identifiers "(GPL-2.0+\u3000wItH Classpath)oR( NONE)".toList =
      ["GPL-2.0".toList, "Classpath".toList] := by
  have license : Tree.IsWritten (.leaf ⟨"GPL-2.0".toList, by decide⟩ true) "GPL-2.0+".toList :=
    .leaf _ true
  have exception : Tree.IsWritten (.leaf ⟨"Classpath".toList, by decide⟩ false)
      "Classpath".toList := .leaf _ false
  have none : Tree.IsWritten (.leaf ⟨"NONE".toList, by decide⟩ false) "NONE".toList :=
    .leaf _ false
  have joins : Operator.exception.IsSign "wItH".toList := by decide
  have front : Apart "GPL-2.0+".toList ['\u3000'] "wItH".toList :=
    ⟨List.forall_mem_singleton.mpr rfl, .inl (List.cons_ne_nil _ _)⟩
  have back : Apart "wItH".toList [' '] "Classpath".toList :=
    ⟨List.forall_mem_singleton.mpr rfl, .inl (List.cons_ne_nil _ _)⟩
  have chooses : Operator.disjunction.IsSign "oR".toList := by decide
  have closed : Apart "(GPL-2.0+\u3000wItH Classpath)".toList [] "oR".toList :=
    ⟨List.forall_mem_nil _, .inr (.inl rfl)⟩
  have opened : Apart "oR".toList [] "( NONE)".toList :=
    ⟨List.forall_mem_nil _, .inr (.inr rfl)⟩
  have spaced : ∀ character ∈ [' '], Text.isBlank character = true :=
    List.forall_mem_singleton.mpr rfl
  exact identifiers_read_leaves.1 (.joined chooses
    (.grouped (.joined joins license exception front back))
    (.grouped (.spaced spaced (List.forall_mem_nil _) none)) closed opened)

end LicenseSurvey.Expression

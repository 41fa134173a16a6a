import LicenseSurvey.Expression
import LicenseSurvey.Proofs.Text.Order
import LicenseSurvey.Proofs.Text.Split
import Mathlib.Data.List.DropRight
import Mathlib.Data.List.Sort

/-! # Identifiers

What stands between operators and parentheses is an identifier once its plus signs are gone,
unless nothing is left of it or it means that there is no license. The identifiers of many
expressions are an increasing list, so they are given by which identifiers there are: neither
the order of the expressions nor a repetition changes them.
-/

namespace LicenseSurvey.Expression

structure IsIdentifier (word : Text) : Prop where
  notEmpty : word ≠ []
  notPlaceholder : word ≠ "NOASSERTION".toList ∧ word ≠ "NONE".toList
  /-- It is no operator in any case. -/
  notOperator : Text.lower word ∉ ["and".toList, "or".toList, "with".toList]
  noPlusBehind : word.getLast? ≠ some '+'
  plain : ∀ character ∈ word,
    Text.isBlank character = false ∧ character ≠ '(' ∧ character ≠ ')'

/-! ## One expression -/

theorem isOperator_iff {word : Text} :
    isOperator word = true ↔ Text.lower word ∈ ["and".toList, "or".toList, "with".toList] := by
  simp only [isOperator, Text.sameLetters, List.any_cons, List.any_nil, Bool.or_false,
    Bool.or_eq_true, beq_iff_eq, List.mem_cons, List.not_mem_nil, or_false]
  exact Iff.rfl

theorem isPlaceholder_iff {word : Text} :
    isPlaceholder word = true ↔ word = "NOASSERTION".toList ∨ word = "NONE".toList := by
  rw [isPlaceholder, Bool.or_eq_true, beq_iff_eq, beq_iff_eq]
  rfl

theorem isSeparator_eq_false_iff {character : Char} :
    isSeparator character = false ↔
      Text.isBlank character = false ∧ character ≠ '(' ∧ character ≠ ')' := by
  rw [isSeparator, Bool.or_eq_false_iff, Bool.or_eq_false_iff, beq_eq_false_iff_ne,
    beq_eq_false_iff_ne, and_assoc]

theorem withoutPlus_eq_rdropWhile (word : Text) :
    withoutPlus word = word.rdropWhile (· == '+') := rfl

theorem mem_of_mem_withoutPlus {word : Text} {character : Char}
    (member : character ∈ withoutPlus word) : character ∈ word :=
  (List.rdropWhile_prefix _ word).subset member

theorem getLast?_withoutPlus_ne (word : Text) : (withoutPlus word).getLast? ≠ some '+' := by
  intro plus
  have notEmpty : word.rdropWhile (· == '+') ≠ [] := List.getLast?_isSome.mp (by
    rw [← withoutPlus_eq_rdropWhile, plus, Option.isSome_some])
  have last := List.rdropWhile_last_not (· == '+') word notEmpty
  rw [withoutPlus_eq_rdropWhile, List.getLast?_eq_some_getLast notEmpty,
    Option.some.injEq] at plus
  exact last (beq_iff_eq.mpr plus)

theorem isIdentifier_of_mem_identifiers {expression word : Text}
    (member : word ∈ identifiers expression) : IsIdentifier word := by
  simp only [identifiers, List.mem_filter, List.mem_map, Bool.and_eq_true,
    Bool.not_eq_true'] at member
  obtain ⟨⟨piece, among, rfl⟩, ⟨notEmpty, notOperator⟩, notPlaceholder⟩ := member
  exact {
    notEmpty := by simpa using notEmpty
    notPlaceholder := by
      rw [← Bool.not_eq_true, isPlaceholder_iff, not_or] at notPlaceholder
      exact notPlaceholder
    notOperator := by
      rwa [← Bool.not_eq_true, isOperator_iff] at notOperator
    noPlusBehind := getLast?_withoutPlus_ne piece
    plain := fun character inside =>
      isSeparator_eq_false_iff.mp
        (Text.not_isSeparator_of_mem_splitBy among (mem_of_mem_withoutPlus inside)) }

theorem identifiers_of_plain {word : Text} (plain : ∀ character ∈ word,
    Text.isBlank character = false ∧ character ≠ '(' ∧ character ≠ ')') :
    identifiers word = [withoutPlus word].filter fun word =>
      !word.isEmpty && !isOperator word && !isPlaceholder word := by
  have whole : Text.splitBy isSeparator word = [word] :=
    Text.splitBy_of_not_isSeparator fun character member =>
      isSeparator_eq_false_iff.mpr (plain character member)
  rw [identifiers, whole, List.map_singleton]

theorem withoutPlus_eq_self {word : Text} (noPlusBehind : word.getLast? ≠ some '+') :
    withoutPlus word = word := by
  rw [withoutPlus_eq_rdropWhile, List.rdropWhile_eq_self_iff]
  intro notEmpty plus
  exact noPlusBehind (by rw [List.getLast?_eq_some_getLast notEmpty, beq_iff_eq.mp plus])

theorem identifiers_of_isIdentifier {word : Text} (identifier : IsIdentifier word) :
    identifiers word = [word] := by
  have notOperator : isOperator word = false := by
    rw [← Bool.not_eq_true, isOperator_iff]
    exact identifier.notOperator
  have notPlaceholder : isPlaceholder word = false := by
    rw [← Bool.not_eq_true, isPlaceholder_iff, not_or]
    exact identifier.notPlaceholder
  rw [identifiers_of_plain identifier.plain, withoutPlus_eq_self identifier.noPlusBehind]
  simp [notOperator, notPlaceholder, identifier.notEmpty]

/-- The words that can name a license are those that stand for themselves. -/
theorem identifiers_eq_singleton_iff {word : Text} :
    identifiers word = [word] ↔ IsIdentifier word :=
  ⟨fun single => isIdentifier_of_mem_identifiers (by rw [single]; exact List.mem_singleton_self _),
    identifiers_of_isIdentifier⟩

/-! ## Many expressions -/

theorem pairwise_insert (word : Text) {sorted : List Text}
    (increasing : sorted.Pairwise (· < ·)) : (insert word sorted).Pairwise (· < ·) := by
  induction sorted with
  | nil => exact List.pairwise_singleton _ _
  | cons first rest induction =>
      obtain ⟨least, restIncreasing⟩ := List.pairwise_cons.mp increasing
      rw [insert]
      split
      · rename_i precedes
        have less : word < first := Text.precedes_iff_lt.mp precedes
        refine List.pairwise_cons.mpr ⟨fun other member => ?_, increasing⟩
        rcases List.mem_cons.mp member with rfl | member
        · exact less
        · exact less.trans (least other member)
      · rename_i notPrecedes
        split
        · exact increasing
        · rename_i different
          have notLess : ¬ word < first := fun less =>
            notPrecedes (Text.precedes_iff_lt.mpr less)
          refine List.pairwise_cons.mpr ⟨fun other member => ?_, induction restIncreasing⟩
          rcases mem_insert.mp member with rfl | member
          · exact lt_of_le_of_ne (not_lt.mp notLess) (Ne.symm different)
          · exact least other member

theorem mem_foldl_insert {words sorted : List Text} {other : Text} :
    other ∈ words.foldl (fun sorted word => insert word sorted) sorted ↔
      other ∈ words ∨ other ∈ sorted := by
  induction words generalizing sorted with
  | nil => simp
  | cons word words induction =>
      rw [List.foldl_cons, induction, mem_insert, List.mem_cons, or_left_comm, or_assoc]

theorem pairwise_foldl_insert (words : List Text) {sorted : List Text}
    (increasing : sorted.Pairwise (· < ·)) :
    (words.foldl (fun sorted word => insert word sorted) sorted).Pairwise (· < ·) := by
  induction words generalizing sorted with
  | nil => exact increasing
  | cons word words induction => exact induction (pairwise_insert word increasing)

theorem mem_collect {expressions : List Text} {word : Text} :
    word ∈ collect expressions ↔ ∃ expression ∈ expressions, word ∈ identifiers expression := by
  rw [collect, mem_foldl_insert, List.mem_flatMap]
  simp

theorem pairwise_collect (expressions : List Text) :
    (collect expressions).Pairwise (· < ·) :=
  pairwise_foldl_insert _ .nil

/-- The identifiers of many expressions depend only on which expressions there are. -/
theorem collect_eq_of_mem_iff {left right : List Text}
    (same : ∀ expression, expression ∈ left ↔ expression ∈ right) :
    collect left = collect right := by
  refine (pairwise_collect left).eq_of_mem_iff (pairwise_collect right) fun word => ?_
  simp only [mem_collect, same]

end LicenseSurvey.Expression

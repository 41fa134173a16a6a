import LicenseSurvey.Text.Basic

/-! # Splitting at separators

Splitting loses the separators and nothing else. No piece holds a separator, and the
pieces of two texts with a separator between them are those of the first one and then
those of the second.
-/

namespace LicenseSurvey.Text

variable {α : Type} {isSeparator : α → Bool} {elements piece : List α}

theorem splitBy_eq_splitOnP (isSeparator : α → Bool) (elements : List α) :
    splitBy isSeparator elements = elements.splitOnP isSeparator := by
  induction elements with
  | nil => rfl
  | cons element rest induction =>
      obtain ⟨piece, pieces, split⟩ :=
        List.exists_cons_of_ne_nil (splitBy_ne_nil isSeparator rest)
      rw [splitBy, List.splitOnP_cons_eq_if_modifyHead, ← induction, split]
      rfl

theorem exists_splitBy_eq_concat (isSeparator : α → Bool) (elements : List α) :
    ∃ pieces last, splitBy isSeparator elements = pieces ++ [last] := by
  rcases List.eq_nil_or_concat (splitBy isSeparator elements) with none | ⟨pieces, last, split⟩
  · exact absurd none (splitBy_ne_nil _ _)
  · exact ⟨pieces, last, by rw [split, List.concat_eq_append]⟩

theorem splitBy_of_not_isSeparator (inside : ∀ element ∈ elements, isSeparator element = false) :
    splitBy isSeparator elements = [elements] := by
  rw [splitBy_eq_splitOnP]
  exact List.splitOnP_eq_singleton inside

theorem splitBy_append {separator : α} (separates : isSeparator separator = true)
    (left right : List α) :
    splitBy isSeparator (left ++ separator :: right) =
      splitBy isSeparator left ++ splitBy isSeparator right := by
  simp only [splitBy_eq_splitOnP]
  exact List.splitOnP_append_cons left right separates

/-! ## One separator -/

section

variable [DecidableEq α] {separator : α}

theorem splitBy_of_notMem (outside : separator ∉ elements) :
    splitBy (· == separator) elements = [elements] := by
  apply splitBy_of_not_isSeparator
  intro element member
  rw [beq_eq_false_iff_ne]
  rintro rfl
  exact outside member

theorem splitBy_append_of_notMem {front : List α} (outside : separator ∉ front)
    (rest : List α) :
    splitBy (· == separator) (front ++ separator :: rest) =
      front :: splitBy (· == separator) rest := by
  have cut := @splitBy_append _ (· == separator) _ (beq_self_eq_true separator) front rest
  rw [cut, splitBy_of_notMem outside, List.singleton_append]

/-- A list can be reasoned about piece by piece. -/
theorem induction_pieces (separator : α) {motive : List α → Prop}
    (last : ∀ elements, separator ∉ elements → motive elements)
    (piece : ∀ front rest, separator ∉ front → motive rest → motive (front ++ separator :: rest))
    (elements : List α) : motive elements := by
  by_cases member : separator ∈ elements
  · obtain ⟨front, rest, split, outside⟩ := List.eq_append_cons_of_mem member
    have shorter : rest.length < elements.length := by
      rw [split, List.length_append, List.length_cons]
      omega
    rw [split]
    exact piece front rest outside (induction_pieces separator last piece rest)
  · exact last elements member
termination_by elements.length

end

/-! ## Many pieces -/

theorem splitBy_flatMap (isSeparator : α → Bool) {separator : α}
    (separates : isSeparator separator = true) {pieces : List (List α)}
    (inside : ∀ piece ∈ pieces, ∀ element ∈ piece, isSeparator element = false) :
    splitBy isSeparator (pieces.flatMap fun piece => piece ++ [separator]) = pieces ++ [[]] := by
  induction pieces with
  | nil => rfl
  | cons piece pieces induction =>
      rw [List.flatMap_cons, List.append_assoc, List.singleton_append,
        splitBy_append separates,
        splitBy_of_not_isSeparator (inside piece (List.mem_cons_self ..)),
        induction fun later member => inside later (List.mem_cons_of_mem _ member)]
      rfl

theorem not_isSeparator_of_mem_splitBy (among : piece ∈ splitBy isSeparator elements)
    {element : α} (member : element ∈ piece) : isSeparator element = false := by
  induction elements generalizing piece with
  | nil =>
      rw [List.mem_singleton.mp among] at member
      simp at member
  | cons first rest induction =>
      obtain ⟨head, tail, split⟩ := List.exists_cons_of_ne_nil (splitBy_ne_nil isSeparator rest)
      rw [splitBy] at among
      by_cases separates : isSeparator first = true
      · rw [if_pos separates] at among
        rcases List.mem_cons.mp among with equal | among
        · simp [equal] at member
        · exact induction among member
      · rw [if_neg separates, split] at among
        rw [split] at induction
        rcases List.mem_cons.mp among with equal | among
        · rw [equal] at member
          rcases List.mem_cons.mp member with equal | member
          · simpa [equal] using separates
          · exact induction (List.mem_cons_self ..) member
        · exact induction (List.mem_cons_of_mem _ among) member

theorem notMem_of_mem_splitBy [DecidableEq α] {separator : α}
    (among : piece ∈ splitBy (· == separator) elements) : separator ∉ piece := by
  intro member
  have inside := not_isSeparator_of_mem_splitBy among member
  simp at inside

theorem mem_of_mem_splitBy (among : piece ∈ splitBy isSeparator elements) {element : α}
    (member : element ∈ piece) : element ∈ elements := by
  induction elements generalizing piece with
  | nil => rwa [List.mem_singleton.mp among] at member
  | cons first rest induction =>
      obtain ⟨head, tail, split⟩ := List.exists_cons_of_ne_nil (splitBy_ne_nil isSeparator rest)
      rw [splitBy] at among
      by_cases separates : isSeparator first = true
      · rw [if_pos separates] at among
        rcases List.mem_cons.mp among with rfl | among
        · exact absurd member List.not_mem_nil
        · exact List.mem_cons_of_mem _ (induction among member)
      · rw [if_neg separates, split] at among
        rw [split] at induction
        rcases List.mem_cons.mp among with rfl | among
        · rcases List.mem_cons.mp member with rfl | member
          · exact List.mem_cons_self ..
          · exact List.mem_cons_of_mem _ (induction (List.mem_cons_self ..) member)
        · exact List.mem_cons_of_mem _ (induction (List.mem_cons_of_mem _ among) member)

theorem exists_mem_splitBy (isSeparator : α → Bool) {element : α} (member : element ∈ elements)
    (plain : isSeparator element = false) :
    ∃ piece ∈ splitBy isSeparator elements, element ∈ piece := by
  induction elements with
  | nil => simp at member
  | cons first rest induction =>
      obtain ⟨head, tail, split⟩ := List.exists_cons_of_ne_nil (splitBy_ne_nil isSeparator rest)
      rw [splitBy]
      by_cases separates : isSeparator first = true
      · rcases List.mem_cons.mp member with equal | member
        · rw [equal, separates] at plain
          exact Bool.noConfusion plain
        · obtain ⟨piece, among, inside⟩ := induction member
          rw [if_pos separates]
          exact ⟨piece, List.mem_cons_of_mem _ among, inside⟩
      · rw [if_neg separates, split]
        rcases List.mem_cons.mp member with equal | member
        · exact ⟨first :: head, List.mem_cons_self .., equal ▸ List.mem_cons_self ..⟩
        · obtain ⟨piece, among, inside⟩ := induction member
          rw [split] at among
          rcases List.mem_cons.mp among with equal | among
          · exact ⟨first :: head, List.mem_cons_self .., List.mem_cons_of_mem _ (equal ▸ inside)⟩
          · exact ⟨piece, List.mem_cons_of_mem _ among, inside⟩

theorem prefix_of_splitBy {pieces : List (List α)}
    (split : splitBy isSeparator elements = piece :: pieces) : piece <+: elements := by
  induction elements generalizing piece pieces with
  | nil =>
      rw [splitBy_nil, List.cons.injEq] at split
      exact split.1 ▸ List.nil_prefix
  | cons first rest induction =>
      obtain ⟨head, tail, behind⟩ := List.exists_cons_of_ne_nil (splitBy_ne_nil isSeparator rest)
      rw [splitBy, behind] at split
      by_cases separates : isSeparator first = true
      · rw [if_pos separates, List.cons.injEq] at split
        exact split.1 ▸ List.nil_prefix
      · rw [if_neg separates, List.cons.injEq] at split
        rw [← split.1]
        exact List.cons_prefix_cons.mpr ⟨rfl, induction behind⟩

end LicenseSurvey.Text

import LicenseSurvey.Path
import LicenseSurvey.Proofs.Text.Split

/-! # File names beneath a root

However a path is written, its form beneath the root ends with the same file name. For
a walk along the components keeps a name that stands last, and joining components to a
path puts the last of them at its end.
-/

namespace LicenseSurvey.Path

variable {root path relative base : Path} {name : Bytes}

/-! ## Names -/

def IsName (name : Bytes) : Prop := stepOfPiece? name = some (.name name) ∧ slash ∉ name

namespace IsName

theorem ne_nil (isName : IsName name) : name ≠ [] := by
  rintro rfl
  cases isName.1

theorem ne_dot (isName : IsName name) : name ≠ [dot] := by
  rintro rfl
  cases isName.1

theorem isAbsolute_eq_false (isName : IsName name) : isAbsolute name = false := by
  cases name with
  | nil => rfl
  | cons byte rest =>
      rw [isAbsolute, List.head?_cons, beq_eq_false_iff_ne]
      intro equal
      exact isName.2 (Option.some.inj equal ▸ List.mem_cons_self ..)

end IsName

theorem fileName?_eq_some_iff :
    fileName? path = some name ↔ (components path).getLast? = some (.name name) := by
  rw [fileName?]
  split <;> simp_all

theorem isName_of_mem_components (member : .name name ∈ components path) : IsName name := by
  rw [components] at member
  rcases List.mem_append.mp member with start | step
  · split at start
    · simp at start
    split at start <;> simp at start
  · obtain ⟨piece, among, step⟩ := List.mem_filterMap.mp step
    have inside : slash ∉ piece := Text.notMem_of_mem_splitBy among
    have same : piece = name := by
      simp only [stepOfPiece?] at step
      split at step
      · simp at step
      split at step
      · simp at step
      · simpa using step
    rw [same] at step inside
    exact ⟨step, inside⟩

theorem getLast?_components (isName : IsName name) (pieces : List Bytes)
    (split : Text.splitBy (· == slash) path = pieces ++ [name]) :
    (components path).getLast? = some (.name name) := by
  rw [components, split, List.filterMap_append, List.filterMap_cons, isName.1,
    List.filterMap_nil, ← List.append_assoc, List.getLast?_concat]

theorem splitBy_of_isName (isName : IsName name) :
    Text.splitBy (· == slash) name = [name] :=
  Text.splitBy_of_not_isSeparator fun byte member => by
    rw [beq_eq_false_iff_ne]
    rintro rfl
    exact isName.2 member

theorem fileName?_join (base : Path) (isName : IsName name) :
    fileName? (join base name) = some name := by
  have behind (front : Path) : fileName? (front ++ slash :: name) = some name := by
    apply fileName?_eq_some_iff.mpr
    apply getLast?_components isName (Text.splitBy (· == slash) front)
    rw [Text.splitBy_append (by rfl), splitBy_of_isName isName]
  rw [join, isName.isAbsolute_eq_false, if_neg (by decide)]
  -- A slash at the end of the base is not doubled, so it counts as the separator.
  split
  · rename_i ends
    rcases ends with rfl | slash
    · exact fileName?_eq_some_iff.mpr
        (getLast?_components isName [] (splitBy_of_isName isName))
    · obtain ⟨front, rfl⟩ := List.getLast?_eq_some_iff.mp slash
      rw [List.append_assoc]
      exact behind front
  · exact behind base

/-! ## The walk -/

theorem walk_append_name (visited steps : List Component) :
    walk visited (steps ++ [.name name]) =
      (walk visited steps).map fun before => before ++ [.name name] := by
  fun_induction walk visited steps with
  | case1 visited => rfl
  | case2 visited rest induction => exact induction
  | case3 visited rest text last induction =>
      rw [List.cons_append, walk, last]
      exact induction
  | case4 visited rest none =>
      rw [List.cons_append, walk]
      split
      · rename_i text last
        exact absurd last (none text)
      · rfl
  | case5 visited rest induction => exact induction
  | case6 visited text rest induction => exact induction

/-! ## Steps from a root -/

inductive StepsFrom (root path : Path) (steps : List Component) : Prop
  | relative (notAbsolute : isAbsolute path = false) (whole : components path = steps)
  | beneath (absolute : isAbsolute path = true) (split : components path = components root ++ steps)

def ofSteps (path : Path) (steps : List Component) : Except Misplaced Path :=
  match walk [] steps with
  | none => throw (.escaping path)
  | some [] => throw (.nameless path)
  | some visited => pure (ofComponents visited)

theorem ofSteps_eq_ok_iff {steps : List Component} :
    ofSteps path steps = .ok relative ↔
      ∃ visited, walk [] steps = some visited ∧ visited ≠ [] ∧ relative = ofComponents visited := by
  rw [ofSteps]
  constructor
  · intro placed
    split at placed
    · cases placed
    · cases placed
    · rename_i visited notEmpty walked
      cases placed
      exact ⟨visited, walked, notEmpty, rfl⟩
  · rintro ⟨visited, walked, notEmpty, rfl⟩
    rw [walked]
    cases visited with
    | nil => exact absurd rfl notEmpty
    | cons component visited => rfl

theorem relativeTo_eq_ok_iff :
    relativeTo root path = .ok relative ↔
      ∃ steps, StepsFrom root path steps ∧ ofSteps path steps = .ok relative := by
  rw [relativeTo]
  cases absolute : isAbsolute path with
  | false =>
      rw [if_neg (by decide)]
      constructor
      · exact fun placed => ⟨components path, .relative absolute rfl, placed⟩
      · rintro ⟨steps, taken, placed⟩
        cases taken with
        | relative _ whole => exact whole ▸ placed
        | beneath other _ => exact absurd (absolute.symm.trans other) (by decide)
  | true =>
      rw [if_pos rfl]
      constructor
      · intro placed
        cases found : componentsBeneath? (components root) (components path) with
        | none =>
            rw [found] at placed
            cases placed
        | some steps =>
            rw [found] at placed
            exact ⟨steps, .beneath absolute (componentsBeneath?_eq_some_iff.mp found), placed⟩
      · rintro ⟨steps, taken, placed⟩
        cases taken with
        | relative other _ => exact absurd (absolute.symm.trans other) (by decide)
        | beneath _ split =>
            rw [componentsBeneath?_eq_some_iff.mpr split]
            exact placed

theorem fileName?_of_relativeTo (placed : relativeTo root path = .ok relative)
    (named : fileName? path = some name) : fileName? relative = some name := by
  rcases relativeTo_eq_ok_iff.mp placed with ⟨steps, taken, reached⟩
  rcases ofSteps_eq_ok_iff.mp reached with ⟨visited, walked, notEmpty, rfl⟩
  have last := fileName?_eq_some_iff.mp named
  have isName := isName_of_mem_components (List.mem_of_getLast? last)
  have split : ∃ before, components path = before ++ steps := by
    cases taken with
    | relative _ whole => exact ⟨[], whole⟩
    | beneath _ split => exact ⟨components root, split⟩
  rcases split with ⟨before, split⟩
  rcases List.eq_nil_or_concat steps with rfl | ⟨earlier, final, rfl⟩
  · rw [walk, Option.some.injEq] at walked
    exact absurd walked.symm notEmpty
  · rw [List.concat_eq_append] at split walked
    rw [split, ← List.append_assoc, List.getLast?_concat, Option.some.injEq] at last
    rw [last, walk_append_name, Option.map_eq_some_iff] at walked
    rcases walked with ⟨front, -, rfl⟩
    rw [ofComponents, List.foldl_append]
    exact fileName?_join _ isName

end LicenseSurvey.Path

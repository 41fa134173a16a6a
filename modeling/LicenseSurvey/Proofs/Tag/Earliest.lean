import LicenseSurvey.Proofs.Tag.Position

/-! # The earliest key of a line

Of the keys in a line the one that begins first counts, and of those that begin at the same
place the first of the table. Reading the line from its front finds this key. So does a search
that goes through the table, looks for each key in the bytes of the line, and keeps the best
place so far.
-/

namespace LicenseSurvey.Key

variable {Label : Type} {keys : List (Key Label)} {line : Text} {key other : Key Label}
  {position place : Nat}

/-- A key of the table is at a byte position of a line, none is at an earlier one, and none that
is in front of it in the table is at the same one. -/
structure IsEarliest (keys : List (Key Label)) (line : Text) (key : Key Label)
    (position : Nat) : Prop where
  occurs : key.OccursAt line position
  noneEarlier : ∀ other ∈ keys, ∀ earlier < position, ¬other.OccursAt line earlier
  firstOfTable : ∃ ahead behind, keys = ahead ++ key :: behind ∧
    ∀ other ∈ ahead, ¬other.OccursAt line position

namespace IsEarliest

theorem mem (earliest : IsEarliest keys line key position) : key ∈ keys := by
  rcases earliest.firstOfTable with ⟨ahead, behind, rfl, -⟩
  simp

theorem position_le (earliest : IsEarliest keys line key position)
    (occurs : other.OccursAt line place) (member : other ∈ keys) : position ≤ place := by
  apply Nat.le_of_not_lt
  intro less
  exact earliest.noneEarlier other member place less occurs

theorem find?_eq (earliest : IsEarliest keys line key position) :
    (keys.find? fun other => other.OccursAt line position) = some key := by
  rcases earliest.firstOfTable with ⟨ahead, behind, split, absent⟩
  apply List.find?_eq_some_iff_append.mpr
  exact ⟨by simpa using earliest.occurs, ahead, behind, split, by simpa using absent⟩

theorem unique (left : IsEarliest keys line key position)
    (right : IsEarliest keys line other place) : key = other ∧ position = place := by
  have same : position = place :=
    Nat.le_antisymm (left.position_le right.occurs right.mem)
      (right.position_le left.occurs left.mem)
  subst same
  exact ⟨Option.some.inj (left.find?_eq.symm.trans right.find?_eq), rfl⟩

end IsEarliest

inductive IsBest (keys : List (Key Label)) (line : Text) : Option (Key Label × Nat) → Prop
  | absent (nowhere : ∀ key ∈ keys, ∀ position, ¬key.OccursAt line position) :
      IsBest keys line none
  | present {key : Key Label} {position : Nat} (earliest : IsEarliest keys line key position) :
      IsBest keys line (some (key, position))

theorem IsBest.unique {best second : Option (Key Label × Nat)} (left : IsBest keys line best)
    (right : IsBest keys line second) : best = second := by
  cases left with
  | absent nowhere =>
      cases right with
      | absent => rfl
      | present earliest => exact absurd earliest.occurs (nowhere _ earliest.mem _)
  | present earliest =>
      cases right with
      | absent nowhere => exact absurd earliest.occurs (nowhere _ earliest.mem _)
      | present second =>
          rcases earliest.unique second with ⟨rfl, rfl⟩
          rfl

/-! ## Key by key -/

def position? (key : Key Label) (line : Text) : Option Nat :=
  (List.range (Text.encode line).length).find? fun position => key.OccursAt line position

theorem position?_eq_none_iff :
    key.position? line = none ↔ ∀ position, ¬key.OccursAt line position := by
  rw [position?, List.find?_range_eq_none]
  simp only [Bool.not_eq_true', decide_eq_false_iff_not]
  constructor
  · intro absent position occurs
    exact absent position (lt_length_of_occursAt occurs) occurs
  · exact fun absent position _ => absent position

theorem position?_eq_some_iff :
    key.position? line = some position ↔
      key.OccursAt line position ∧ ∀ earlier < position, ¬key.OccursAt line earlier := by
  rw [position?, List.find?_range_eq_some]
  simp only [decide_eq_true_eq, List.mem_range, Bool.not_eq_true', decide_eq_false_iff_not]
  constructor
  · exact fun ⟨occurs, _, absent⟩ => ⟨occurs, absent⟩
  · exact fun ⟨occurs, absent⟩ => ⟨occurs, lt_length_of_occursAt occurs, absent⟩

def better (line : Text) (best : Option (Key Label × Nat)) (key : Key Label) :
    Option (Key Label × Nat) :=
  match key.position? line with
  | none => best
  | some position =>
      if best.all fun leader => position < leader.2 then some (key, position) else best

def search (keys : List (Key Label)) (line : Text) : Option (Key Label × Nat) :=
  keys.foldl (better line) none

theorem IsEarliest.concat (earliest : IsEarliest keys line key position)
    (later : ∀ place < position, ¬other.OccursAt line place) :
    IsEarliest (keys ++ [other]) line key position where
  occurs := earliest.occurs
  noneEarlier := by
    rw [List.forall_mem_append, List.forall_mem_singleton]
    exact ⟨earliest.noneEarlier, later⟩
  firstOfTable := by
    rcases earliest.firstOfTable with ⟨ahead, behind, rfl, absent⟩
    exact ⟨ahead, behind ++ [other], by simp, absent⟩

theorem isEarliest_concat (found : key.position? line = some position)
    (nowhere : ∀ other ∈ keys, ∀ place ≤ position, ¬other.OccursAt line place) :
    IsEarliest (keys ++ [key]) line key position where
  occurs := (position?_eq_some_iff.mp found).1
  noneEarlier := by
    rw [List.forall_mem_append, List.forall_mem_singleton]
    constructor
    · exact fun other member place less => nowhere other member place (Nat.le_of_lt less)
    · exact (position?_eq_some_iff.mp found).2
  firstOfTable := ⟨keys, [], rfl, fun other member => nowhere other member position (Nat.le_refl _)⟩

theorem IsBest.better {best : Option (Key Label × Nat)} (isBest : IsBest keys line best)
    (key : Key Label) : IsBest (keys ++ [key]) line (better line best key) := by
  rw [Key.better]
  cases found : key.position? line with
  | none =>
      have absent := position?_eq_none_iff.mp found
      cases isBest with
      | absent nowhere =>
          apply IsBest.absent
          rw [List.forall_mem_append, List.forall_mem_singleton]
          exact ⟨nowhere, absent⟩
      | present earliest => exact .present (earliest.concat fun place _ => absent place)
  | some position =>
      cases isBest with
      | absent nowhere =>
          apply IsBest.present
          apply isEarliest_concat found
          exact fun other member place _ => nowhere other member place
      | @present leader first earliest =>
          by_cases less : position < first
          · simp only [Option.all_some, less, decide_true, if_true]
            apply IsBest.present
            apply isEarliest_concat found
            intro other member place atMost
            exact earliest.noneEarlier other member place (Nat.lt_of_le_of_lt atMost less)
          · simp only [Option.all_some, less, decide_false, Bool.false_eq_true, if_false]
            apply IsBest.present
            apply earliest.concat
            intro place before
            exact (position?_eq_some_iff.mp found).2 place (by omega)

theorem IsBest.foldl {best : Option (Key Label × Nat)} (isBest : IsBest keys line best)
    (further : List (Key Label)) :
    IsBest (keys ++ further) line (further.foldl (Key.better line) best) := by
  induction further generalizing keys best with
  | nil => rwa [List.append_nil]
  | cons key further induction =>
      rw [List.foldl_cons, ← List.singleton_append, ← List.append_assoc]
      exact induction (isBest.better key)

theorem isBest_search (keys : List (Key Label)) (line : Text) :
    IsBest keys line (search keys line) := by
  have start : IsBest ([] : List (Key Label)) line none := .absent (by simp)
  exact start.foldl keys

/-! ## From the front of the line -/

theorem find?_eq_none_iff_of_positions :
    find? keys line = none ↔ ∀ key ∈ keys, ∀ position, ¬key.OccursAt line position := by
  rw [find?_eq_none_iff]
  constructor
  · intro absent key member position occurs
    rcases occursAt_iff.mp occurs with ⟨front, text, rfl, -, stands⟩
    rw [absent text (List.suffix_append front text) key member] at stands
    exact Bool.noConfusion stands
  · rintro nowhere text ⟨front, rfl⟩ key member
    rw [Bool.eq_false_iff]
    intro stands
    exact nowhere key member (Text.size front) (occursAt_size_iff.mpr stands)

theorem isEarliest_of_find? {found : Occurrence Label} (present : find? keys line = some found) :
    found.key.IsEarliest keys line found.start := by
  rcases exists_of_find?_eq_some present with ⟨text, split, first, -, absent⟩
  constructor
  case occurs =>
    rw [split]
    exact occursAt_size_iff.mpr (standsAt_of_atFront? first)
  case noneEarlier =>
    intro other member place less occurs
    rcases occursAt_iff.mp occurs with ⟨front, back, same, rfl, stands⟩
    have shorter : Text.size front < Text.size found.before := less
    rcases Text.exists_of_append_eq (same.symm.trans split) (Nat.le_of_lt shorter) with
      ⟨between, longer, -⟩
    have fewer : front.length < found.before.length := by
      cases between with
      | nil => simp [longer] at shorter
      | cons character between => simp [longer]
    rw [absent front back same fewer other member] at stands
    exact Bool.noConfusion stands
  case firstOfTable =>
    rcases List.find?_eq_some_iff_append.mp first with ⟨-, ahead, behind, table, apart⟩
    refine ⟨ahead, behind, table, ?_⟩
    intro other member occurs
    rw [split] at occurs
    have stands := occursAt_size_iff.mp occurs
    simpa [stands] using apart other member

theorem isBest_find? (keys : List (Key Label)) (line : Text) :
    IsBest keys line ((find? keys line).map fun found => (found.key, found.start)) := by
  cases read : find? keys line with
  | none => exact .absent (find?_eq_none_iff_of_positions.mp read)
  | some found => exact .present (isEarliest_of_find? read)

/-- Trying the keys one by one in the bytes of a line comes to what is read from its front. -/
theorem search_eq_find? (keys : List (Key Label)) (line : Text) :
    search keys line = (find? keys line).map fun found => (found.key, found.start) :=
  (isBest_search keys line).unique (isBest_find? keys line)

/-- The first key of the table begins too late, and the other two at the same place. -/
example : search [.row "b" 'b' .line, .row "A" 'A' .marker, .row "ab" 'c' .line] "é aB:".toList =
    some (.row "A" 'A' .marker, 3) := by decide

/-! ## Where the key is cut out -/

/-- The earliest key of a line, cut out at its two ends. Both of them are boundaries, and behind
the second one begins what follows the name and its colon. -/
structure Occurrence.IsEarliest (keys : List (Key Label)) (line : Text)
    (found : Occurrence Label) : Prop where
  earliest : found.key.IsEarliest keys line found.start
  stop_eq : found.stop = found.start + (Text.encode found.key.name).length +
    if found.key.shape = .marker then 0 else 1
  boundary_start : Text.IsBoundary line found.start
  boundary_stop : Text.IsBoundary line found.stop
  before_eq : found.before = Text.takeBytes found.start line
  after_eq : found.after = Text.dropBytes found.stop line

theorem Occurrence.IsEarliest.unique {found second : Occurrence Label}
    (left : found.IsEarliest keys line) (right : second.IsEarliest keys line) :
    found = second := by
  rcases left.earliest.unique right.earliest with ⟨sameKey, sameStart⟩
  have sameStop : found.stop = second.stop := by
    rw [left.stop_eq, right.stop_eq, sameKey, sameStart]
  have sameBefore : found.before = second.before := by
    rw [left.before_eq, right.before_eq, sameStart]
  have sameAfter : found.after = second.after := by
    rw [left.after_eq, right.after_eq, sameStop]
  cases found
  cases second
  simp only [Occurrence.mk.injEq]
  exact ⟨sameKey, sameBefore, sameAfter⟩

theorem Occurrence.isEarliest_of_find? {found : Occurrence Label}
    (present : find? keys line = some found) : found.IsEarliest keys line := by
  rcases exists_of_find?_eq_some present with ⟨text, split, first, after, -⟩
  have cut : line = (found.before ++ text.take found.key.length) ++ found.after := by
    rw [after, List.append_assoc, List.take_append_drop, split]
  have stop : found.stop = Text.size (found.before ++ text.take found.key.length) := by
    rw [Text.size_append, size_take_of_standsAt (standsAt_of_atFront? first)]
    rfl
  constructor
  case earliest => exact Key.isEarliest_of_find? present
  case stop_eq =>
    rw [Occurrence.stop, Key.size, Text.length_encode]
    split <;> rfl
  case boundary_start => exact ⟨found.before, text, split.symm ▸ rfl, rfl⟩
  case boundary_stop => exact ⟨_, _, cut, stop.symm⟩
  case before_eq => rw [Occurrence.start, split, Text.takeBytes_size_append]
  case after_eq => rw [stop, cut, Text.dropBytes_size_append]

/-- No key is found in a line exactly when none occurs at any of its byte positions. Otherwise
the one found is the earliest key, and it is cut out of the line at boundaries. -/
theorem earliest_key_found (keys : List (Key Label)) (line : Text) :
    (find? keys line = none ↔ ∀ key ∈ keys, ∀ position, ¬key.OccursAt line position) ∧
      ∀ found, find? keys line = some found ↔ found.IsEarliest keys line := by
  refine ⟨find?_eq_none_iff_of_positions, ?_⟩
  intro found
  constructor
  · exact Occurrence.isEarliest_of_find?
  · intro isEarliest
    cases read : find? keys line with
    | none =>
        have nowhere := find?_eq_none_iff_of_positions.mp read
        have earliest := isEarliest.earliest
        exact absurd earliest.occurs (nowhere _ earliest.mem _)
    | some second => rw [(Occurrence.isEarliest_of_find? read).unique isEarliest]

end LicenseSurvey.Key

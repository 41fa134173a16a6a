import LicenseSurvey.Proofs.Text.Split
import LicenseSurvey.Wildcard

/-! # What a pattern stands for

The stars of a pattern are places for any texts, and all that is between them is fixed. A
path fits a pattern when some texts fill its stars so that the path comes out. The places of
the segments are sought one after the other, each as far in front as it can be; a path that
fits is found all the same, because what a segment leaves over in front of a later place has
as many line feeds as what is in front of the first.
-/

namespace LicenseSurvey.Wildcard

variable {segment text : Text}

def filled (first : Text) (segments gaps : List Text) : Text :=
  first ++ (List.zipWith (· ++ ·) gaps segments).flatten

example : filled ['a'] [['b'], []] [['x'], ['y', 'z']] = ['a', 'x', 'b', 'y', 'z'] := by decide

/-- The path is the pattern with some text in the place of each star. -/
def Fits (pattern path : Text) : Prop :=
  ∃ first segments gaps, Text.splitBy (· == '*') pattern = first :: segments ∧
    gaps.length = segments.length ∧ path = filled first segments gaps

/-! ## The first place of a segment -/

/-- Two places of a segment that overlap or follow each other leave the same line feeds over:
what is in front of the later place has those that are behind the earlier one. -/
theorem notMem_of_append_eq {front extra : Text} (inLine : '\n' ∉ front)
    (meet : front ++ segment = segment ++ extra) : '\n' ∉ extra := by
  have counts := congrArg (List.count '\n') meet
  rw [List.count_append, List.count_append, List.count_eq_zero.mpr inLine] at counts
  apply List.count_eq_zero.mp
  omega

/-- Where a segment has a place, the first place leaves no less to what follows. -/
theorem exists_afterFirst? {gap : Text} (inLine : '\n' ∉ gap) (segment rest : Text) :
    ∃ extra, '\n' ∉ extra ∧
      afterFirst? segment (gap ++ (segment ++ rest)) = some (extra ++ rest) := by
  induction gap with
  | nil =>
      refine ⟨[], List.not_mem_nil, ?_⟩
      cases whole : segment ++ rest with
      | nil =>
          rcases List.append_eq_nil_iff.mp whole with ⟨rfl, rfl⟩
          rfl
      | cons character behind =>
          have here := Text.dropFront?_eq_some_iff.mpr whole.symm
          rw [List.nil_append, afterFirst?, here]
          rfl
  | cons character gap induction =>
      rw [List.mem_cons, not_or] at inLine
      rw [List.cons_append, afterFirst?]
      split
      · rename_i after here
        have whole := Text.dropFront?_eq_some_iff.mp here
        rw [← List.cons_append, ← List.append_assoc] at whole
        have shorter : rest.length ≤ after.length := by
          have lengths := congrArg List.length whole
          simp only [List.length_append, List.length_cons] at lengths
          omega
        have behind : rest <:+ segment ++ after := ⟨_, whole⟩
        rcases List.suffix_of_suffix_length_le behind (List.suffix_append segment after)
          shorter with ⟨extra, rfl⟩
        rw [← List.append_assoc, List.append_cancel_right_eq] at whole
        apply Exists.intro extra
        have inGap := List.not_mem_cons_of_ne_of_not_mem inLine.1 inLine.2
        exact ⟨notMem_of_append_eq inGap whole, rfl⟩
      · rw [if_neg (Ne.symm inLine.1)]
        exact induction inLine.2

theorem endsInLine_iff :
    endsInLine segment text = true ↔ ∃ gap, '\n' ∉ gap ∧ text = gap ++ segment := by
  rw [endsInLine]
  simp only [Bool.and_eq_true, decide_eq_true_eq, beq_iff_eq, Bool.not_eq_true',
    List.contains_eq_mem, decide_eq_false_iff_not]
  constructor
  · rintro ⟨⟨-, ends⟩, inLine⟩
    have whole := List.take_append_drop (text.length - segment.length) text
    rw [ends] at whole
    exact ⟨_, inLine, whole.symm⟩
  · rintro ⟨gap, inLine, rfl⟩
    have cut : (gap ++ segment).length - segment.length = gap.length := by simp
    rw [cut, List.take_left, List.drop_left]
    exact ⟨⟨by simp, rfl⟩, inLine⟩

/-! ## All segments -/

/-- The text is made of the segments, with a gap inside one line in front of each. -/
inductive Spaced : (segments : List Text) → (text : Text) → Prop
  | nil : Spaced [] []
  | cons {segment segments gap rest} (inLine : '\n' ∉ gap) (later : Spaced segments rest) :
      Spaced (segment :: segments) (gap ++ (segment ++ rest))

theorem spaced_cons_iff {segments : List Text} :
    Spaced (segment :: segments) text ↔
      ∃ gap rest, '\n' ∉ gap ∧ Spaced segments rest ∧ text = gap ++ (segment ++ rest) := by
  constructor
  · intro spaced
    cases spaced with
    | cons inLine later => exact ⟨_, _, inLine, later, rfl⟩
  · rintro ⟨gap, rest, inLine, later, rfl⟩
    exact .cons inLine later

/-- A first gap takes up what stands in front of it in its line. -/
theorem Spaced.extend {segments : List Text} (spaced : Spaced (segment :: segments) text)
    {extra : Text} (inLine : '\n' ∉ extra) : Spaced (segment :: segments) (extra ++ text) := by
  rcases spaced_cons_iff.mp spaced with ⟨gap, rest, inGap, later, rfl⟩
  rw [← List.append_assoc]
  exact .cons (List.not_mem_append inLine inGap) later

theorem starred_iff {segments : List Text} :
    starred segments text = true ↔ Spaced segments text := by
  fun_induction starred segments text with
  | case1 text =>
      rw [List.isEmpty_iff]
      constructor
      · rintro rfl
        exact .nil
      · intro spaced
        cases spaced
        rfl
  | case2 last text =>
      rw [endsInLine_iff, spaced_cons_iff]
      constructor
      · rintro ⟨gap, inLine, rfl⟩
        exact ⟨gap, [], inLine, .nil, by rw [List.append_nil]⟩
      · rintro ⟨gap, rest, inLine, none, rfl⟩
        cases none
        exact ⟨gap, inLine, by rw [List.append_nil]⟩
  | case3 segment next segments text after found induction =>
      rw [induction]
      constructor
      · intro later
        rcases eq_append_of_afterFirst? found with ⟨gap, inLine, rfl⟩
        exact .cons inLine later
      · intro spaced
        rcases spaced_cons_iff.mp spaced with ⟨gap, rest, inLine, later, rfl⟩
        rcases exists_afterFirst? inLine segment rest with ⟨extra, inExtra, first⟩
        rw [first, Option.some.injEq] at found
        rw [← found]
        exact later.extend inExtra
  | case4 segment next segments text absent =>
      rw [spaced_cons_iff]
      constructor
      · exact fun accepted => Bool.noConfusion accepted
      · rintro ⟨gap, rest, inLine, -, rfl⟩
        rcases exists_afterFirst? inLine segment rest with ⟨extra, -, first⟩
        exact absurd (absent.symm.trans first) nofun

theorem spaced_iff {segments : List Text} :
    Spaced segments text ↔
      ∃ gaps, gaps.length = segments.length ∧ (∀ gap ∈ gaps, '\n' ∉ gap) ∧
        text = filled [] segments gaps := by
  induction segments generalizing text with
  | nil =>
      constructor
      · intro spaced
        cases spaced
        exact ⟨[], rfl, by simp, rfl⟩
      · rintro ⟨gaps, -, -, rfl⟩
        rw [filled, List.zipWith_nil_right]
        exact .nil
  | cons segment segments induction =>
      rw [spaced_cons_iff]
      constructor
      · rintro ⟨gap, rest, inLine, later, rfl⟩
        rcases induction.mp later with ⟨gaps, length, inLines, rfl⟩
        refine ⟨gap :: gaps, congrArg (· + 1) length, ?_, ?_⟩
        · exact List.forall_mem_cons.mpr ⟨inLine, inLines⟩
        · simp [filled]
      · rintro ⟨gaps, length, inLines, rfl⟩
        cases gaps with
        | nil => cases length
        | cons gap gaps =>
            rw [List.forall_mem_cons] at inLines
            refine ⟨gap, filled [] segments gaps, inLines.1, ?_, by simp [filled]⟩
            exact induction.mpr ⟨gaps, Nat.succ.inj length, inLines.2, rfl⟩

/-! ## Patterns -/

variable {pattern path : Text}

theorem textAccepts_iff_of_splitBy {first : Text} {segments : List Text}
    (split : Text.splitBy (· == '*') pattern = first :: segments) :
    textAccepts pattern path = true ↔ ∃ rest, path = first ++ rest ∧ Spaced segments rest := by
  rw [textAccepts, split]
  dsimp only
  constructor
  · intro accepted
    cases found : Text.dropFront? first path with
    | none =>
        rw [found] at accepted
        cases accepted
    | some rest =>
        rw [found] at accepted
        exact ⟨rest, Text.dropFront?_eq_some_iff.mp found, starred_iff.mp accepted⟩
  · rintro ⟨rest, whole, spaced⟩
    rw [Text.dropFront?_eq_some_iff.mpr whole]
    exact starred_iff.mpr spaced

theorem textAccepts_iff :
    textAccepts pattern path = true ↔
      ∃ first segments gaps, Text.splitBy (· == '*') pattern = first :: segments ∧
        gaps.length = segments.length ∧ path = filled first segments gaps ∧
          ∀ gap ∈ gaps, '\n' ∉ gap := by
  rcases List.exists_cons_of_ne_nil (Text.splitBy_ne_nil (· == '*') pattern) with
    ⟨first, segments, split⟩
  rw [textAccepts_iff_of_splitBy split]
  constructor
  · rintro ⟨rest, rfl, spaced⟩
    rcases spaced_iff.mp spaced with ⟨gaps, length, inLines, rfl⟩
    exact ⟨first, segments, gaps, split, length, rfl, inLines⟩
  · rintro ⟨front, others, gaps, also, length, rfl, inLines⟩
    rcases List.cons.inj (split.symm.trans also) with ⟨rfl, rfl⟩
    exact ⟨filled [] segments gaps, rfl, spaced_iff.mpr ⟨gaps, length, inLines, rfl⟩⟩

theorem mem_filled {character : Char} {gap : Text} (inside : character ∈ gap) (first : Text)
    {segments gaps : List Text} (length : gaps.length = segments.length) (member : gap ∈ gaps) :
    character ∈ filled first segments gaps := by
  apply List.mem_append_right
  induction gaps generalizing segments with
  | nil => cases member
  | cons front gaps induction =>
      cases segments with
      | nil => cases length
      | cons segment segments =>
          rw [List.zipWith_cons_cons, List.flatten_cons, List.append_assoc]
          rcases List.mem_cons.mp member with rfl | later
          · exact List.mem_append_left _ inside
          · apply List.mem_append_right
            exact List.mem_append_right segment (induction (Nat.succ.inj length) later)

/-- A star alone matches every path, and any other pattern is matched segment by segment. -/
theorem accepts_ofText_iff (small : patternSize pattern ≤ sizeLimit) :
    (ofText pattern).accepts path = true ↔ pattern = ['*'] ∨ textAccepts pattern path = true := by
  rw [ofText]
  by_cases lone : pattern = ['*']
  · rw [if_pos lone]
    exact ⟨fun _ => .inl lone, fun _ => rfl⟩
  · rw [if_neg lone, if_pos small]
    exact ⟨.inr, fun either => either.resolve_left lone⟩

theorem accepts_ofText_iff_fits (small : patternSize pattern ≤ sizeLimit)
    (oneLine : '\n' ∉ path) : (ofText pattern).accepts path = true ↔ Fits pattern path := by
  rw [accepts_ofText_iff small, textAccepts_iff]
  constructor
  · rintro (rfl | ⟨first, segments, gaps, split, length, whole, -⟩)
    · exact ⟨[], [[]], [path], rfl, rfl, by simp [filled]⟩
    · exact ⟨first, segments, gaps, split, length, whole⟩
  · rintro ⟨first, segments, gaps, split, length, rfl⟩
    exact .inr ⟨first, segments, gaps, split, length, rfl,
      fun gap member feed => oneLine (mem_filled feed first length member)⟩

theorem accepts_ofText_of_lt (large : sizeLimit < patternSize pattern) :
    (ofText pattern).accepts path = false := by
  rw [ofText]
  by_cases lone : pattern = ['*']
  · rw [lone] at large
    exact absurd large (by decide)
  · rw [if_neg lone, if_neg (Nat.not_le.mpr large)]
    rfl

end LicenseSurvey.Wildcard

import LicenseSurvey.Proofs.Text.Trim
import LicenseSurvey.Tag.Occurrence

/-! # Places of keys

A key that was found stands where it was found, and a line is without a key when none stands
anywhere in it. No key reaches over a character that its name lacks. So when no key has a
blank character in its name, blank characters at the ends of a line change neither its key
nor, once trimmed, what is behind the key.
-/

namespace LicenseSurvey

section

variable {Label : Type} {keys : List (Key Label)} {line : Text}

/-- A key that was found stands behind a front of the line in which no key begins. -/
theorem Key.exists_of_find?_eq_some {found : Occurrence Label}
    (present : find? keys line = some found) :
    ∃ text, line = found.before ++ text ∧ atFront? keys text = some found.key ∧
      found.after = text.drop found.key.length ∧
        ∀ front back, line = front ++ back → front.length < found.before.length →
          ∀ key ∈ keys, key.standsAt back = false := by
  induction line generalizing found with
  | nil => simp [find?] at present
  | cons character rest induction =>
      rw [find?] at present
      cases first : atFront? keys (character :: rest) with
      | some key =>
          rw [first, Option.some.injEq] at present
          rw [← present]
          exact ⟨character :: rest, rfl, first, rfl, by simp⟩
      | none =>
          rw [first, Option.map_eq_some_iff] at present
          rcases present with ⟨later, read, rfl⟩
          rcases induction read with ⟨text, rfl, stands, after, absent⟩
          refine ⟨text, rfl, stands, after, ?_⟩
          intro front back split less
          cases front with
          | nil =>
              rw [List.nil_append] at split
              rw [← split]
              simpa [atFront?] using first
          | cons other front =>
              rw [List.cons_append, List.cons.injEq] at split
              exact absent front back split.2 (Nat.lt_of_succ_lt_succ less)

theorem Key.mem_of_find? {found : Occurrence Label} (present : find? keys line = some found) :
    found.key ∈ keys := by
  rcases exists_of_find?_eq_some present with ⟨text, -, first, -, -⟩
  exact List.mem_of_find?_eq_some first

theorem Key.after_suffix_of_find? {found : Occurrence Label}
    (present : find? keys line = some found) : found.after <:+ line := by
  rcases exists_of_find?_eq_some present with ⟨text, split, -, after, -⟩
  rw [split, after]
  exact (List.drop_suffix _ text).trans (List.suffix_append _ text)

/-! ## Characters behind and in front of keys -/

section

variable {key : Key Label} {text : Text} {character : Char}

/-- A name does not reach over a character that is none of its letters. -/
theorem Text.startsWithName_append_cons {name : Text}
    (foreign : ∀ letter ∈ name, sameLetter character letter = false) (text behind : Text) :
    startsWithName (text ++ character :: behind) name = startsWithName text name := by
  induction name generalizing text with
  | nil => cases text <;> rfl
  | cons letter name induction =>
      cases text with
      | nil =>
          rw [List.nil_append, startsWithName, startsWithName,
            foreign letter (List.mem_cons_self ..), Bool.false_and]
      | cons first text =>
          rw [List.cons_append, startsWithName, startsWithName,
            induction fun later member => foreign later (List.mem_cons_of_mem _ member)]

theorem Text.startsWithName_append {name : Text} (starts : startsWithName text name = true)
    (behind : Text) : startsWithName (text ++ behind) name = true := by
  induction name generalizing text with
  | nil => cases text ++ behind <;> rfl
  | cons letter name induction =>
      cases text with
      | nil => simp [startsWithName] at starts
      | cons first text =>
          rw [startsWithName, Bool.and_eq_true] at starts
          rw [List.cons_append, startsWithName, starts.1, induction starts.2, Bool.true_and]

theorem Text.length_eq_of_lower_eq {left right : Text} (same : lower left = lower right) :
    left.length = right.length := by
  have lowered := congrArg List.length same
  rwa [lower, lower, List.length_map, List.length_map] at lowered

theorem Text.startsWithName_iff {name : Text} :
    startsWithName text name = true ↔
      ∃ written behind, text = written ++ behind ∧ lower written = lower name := by
  constructor
  · intro starts
    induction name generalizing text with
    | nil => exact ⟨[], text, rfl, rfl⟩
    | cons letter name induction =>
        cases text with
        | nil => simp [startsWithName] at starts
        | cons character text =>
            rw [startsWithName, Bool.and_eq_true, sameLetter, beq_iff_eq] at starts
            rcases induction starts.2 with ⟨written, behind, rfl, same⟩
            refine ⟨character :: written, behind, rfl, ?_⟩
            rw [lower, List.map_cons, starts.1]
            exact congrArg (List.cons letter.toLower) same
  · rintro ⟨written, behind, rfl, same⟩
    apply startsWithName_append
    induction name generalizing written with
    | nil => cases written <;> rfl
    | cons letter name induction =>
        rcases List.map_eq_cons_iff.mp same with ⟨character, rest, rfl, first, same⟩
        rw [startsWithName, sameLetter, first, beq_self_eq_true, Bool.true_and]
        exact induction rest same

theorem Text.length_le_of_startsWithName {name : Text} (starts : startsWithName text name = true) :
    name.length ≤ text.length := by
  rcases startsWithName_iff.mp starts with ⟨written, behind, rfl, same⟩
  rw [List.length_append, length_eq_of_lower_eq same]
  exact Nat.le_add_right _ _

namespace Key

/-- A character that no key can reach over. -/
def IsForeign {Label : Type} (key : Key Label) (character : Char) : Prop :=
  (∀ letter ∈ key.name, Text.sameLetter character letter = false) ∧ character ≠ ':'

instance {Label : Type} (key : Key Label) (character : Char) :
    Decidable (key.IsForeign character) :=
  decidable_of_iff
    ((key.name.all fun letter => !Text.sameLetter character letter) = true ∧ character ≠ ':')
    (by simp [IsForeign])

theorem isForeign_of_isBlank (plain : ∀ letter ∈ key.name, Text.isBlank letter = false)
    (blank : Text.isBlank character = true) : key.IsForeign character := by
  refine ⟨fun letter member => Text.sameLetter_eq_false blank (plain letter member), ?_⟩
  rintro rfl
  exact absurd blank (by decide)

@[simp] theorem standsAt_nil (key : Key Label) : key.standsAt [] = false := by
  rw [standsAt]
  cases key.name <;> rfl

theorem standsAt_iff :
    key.standsAt text = true ↔ key.name ≠ [] ∧ ∃ written behind, text = written ++ behind ∧
      Text.lower written = Text.lower key.name ∧
        (key.shape = .marker ∨ behind.head? = some ':') := by
  rw [standsAt, Bool.and_eq_true, Bool.and_eq_true, Bool.or_eq_true, beq_iff_eq, beq_iff_eq,
    Text.startsWithName_iff, Bool.not_eq_true', List.isEmpty_eq_false_iff, and_assoc]
  apply and_congr_right
  intro _
  constructor
  · rintro ⟨⟨written, behind, rfl, same⟩, ends⟩
    rw [List.drop_left' (Text.length_eq_of_lower_eq same)] at ends
    exact ⟨written, behind, rfl, same, ends⟩
  · rintro ⟨written, behind, rfl, same, ends⟩
    rw [List.drop_left' (Text.length_eq_of_lower_eq same)]
    exact ⟨⟨written, behind, rfl, same⟩, ends⟩

theorem standsAt_append_cons (foreign : key.IsForeign character) (text behind : Text) :
    key.standsAt (text ++ character :: behind) = key.standsAt text := by
  have noColon : (character == ':') = false := beq_eq_false_iff_ne.mpr foreign.2
  rw [standsAt, standsAt, Text.startsWithName_append_cons foreign.1]
  by_cases starts : Text.startsWithName text key.name = true
  · rw [List.drop_append_of_le_length (Text.length_le_of_startsWithName starts),
      List.head?_append]
    cases text.drop key.name.length with
    | nil => simp [noColon]
    | cons first rest => rfl
  · simp [starts]

theorem standsAt_cons (foreign : key.IsForeign character) (behind : Text) :
    key.standsAt (character :: behind) = false :=
  (standsAt_append_cons foreign [] behind).trans key.standsAt_nil

theorem standsAt_append (stands : key.standsAt text = true) (behind : Text) :
    key.standsAt (text ++ behind) = true := by
  rcases standsAt_iff.mp stands with ⟨named, written, rest, rfl, same, ends⟩
  refine standsAt_iff.mpr
    ⟨named, written, rest ++ behind, List.append_assoc .., same, ends.imp_right ?_⟩
  intro colon
  rw [List.head?_append, colon, Option.some_or]

theorem standsAt_of_atFront? (known : atFront? keys text = some key) :
    key.standsAt text = true := by
  rw [atFront?] at known
  have stands := List.find?_some known
  exact stands

theorem length_le_of_standsAt (stands : key.standsAt text = true) : key.length ≤ text.length := by
  rcases standsAt_iff.mp stands with ⟨-, written, rest, rfl, same, ends⟩
  rw [length, List.length_append, Text.length_eq_of_lower_eq same]
  split
  · omega
  · rename_i shape
    rcases List.head?_eq_some_iff.mp (ends.resolve_left shape) with ⟨behind, rfl⟩
    rw [List.length_cons]
    omega

end Key

end

/-! ## Lines without a key -/

namespace Key

theorem find?_eq_none_iff :
    find? keys line = none ↔ ∀ text, text <:+ line → ∀ key ∈ keys, key.standsAt text = false := by
  induction line with
  | nil =>
      rw [find?, eq_self, true_iff]
      intro text suffix key _
      rw [List.suffix_nil.mp suffix, standsAt_nil]
  | cons character rest induction =>
      have front : atFront? keys (character :: rest) = none ↔
          ∀ key ∈ keys, key.standsAt (character :: rest) = false := by
        simp [atFront?]
      simp only [List.suffix_cons_iff, forall_eq_or_imp, ← front, ← induction]
      rw [find?]
      cases atFront? keys (character :: rest) <;> simp

/-- A part of a line without a key is without a key. -/
theorem find?_eq_none_of_infix {part : Text} (inside : part <:+: line)
    (absent : find? keys line = none) : find? keys part = none := by
  rw [find?_eq_none_iff] at absent ⊢
  obtain ⟨before, behind, rfl⟩ := inside
  rintro text ⟨front, rfl⟩ key member
  by_contra stands
  rw [Bool.not_eq_false] at stands
  have suffix : text ++ behind <:+ before ++ (front ++ text) ++ behind :=
    ⟨before ++ front, by simp⟩
  have apart := absent _ suffix key member
  rw [standsAt_append stands] at apart
  exact Bool.noConfusion apart

theorem find?_append_cons {character : Char} (foreign : ∀ key ∈ keys, key.IsForeign character)
    {text behind : Text} (left : find? keys text = none) (right : find? keys behind = none) :
    find? keys (text ++ character :: behind) = none := by
  induction text with
  | nil =>
      have front : atFront? keys (character :: behind) = none := by
        apply List.find?_eq_none.mpr
        intro key member
        rw [standsAt_cons (foreign key member)]
        exact Bool.false_ne_true
      rw [List.nil_append, find?, front, right]
      rfl
  | cons first text induction =>
      have absent := find?_eq_none_iff.mp left (first :: text) List.suffix_rfl
      have front : atFront? keys (first :: (text ++ character :: behind)) = none := by
        apply List.find?_eq_none.mpr
        intro key member
        rw [← List.cons_append, standsAt_append_cons (foreign key member), absent key member]
        exact Bool.false_ne_true
      have rest := find?_eq_none_of_infix (List.infix_cons List.infix_rfl) left
      rw [List.cons_append, find?, front, induction rest]
      rfl

end Key

section

variable (plain : ∀ key ∈ keys, ∀ letter ∈ key.name, Text.isBlank letter = false)
  {character : Char}
include plain

namespace Key

theorem find?_cons_blank (blank : Text.isBlank character = true) (line : Text) :
    find? keys (character :: line) =
      (find? keys line).map fun found => { found with before := character :: found.before } := by
  have absent : atFront? keys (character :: line) = none := by
    apply List.find?_eq_none.mpr
    intro key member
    rw [standsAt_cons (isForeign_of_isBlank (plain key member) blank)]
    exact Bool.false_ne_true
  rw [find?, absent]

theorem find?_concat_blank (blank : Text.isBlank character = true) (line : Text) :
    find? keys (line ++ [character]) =
      (find? keys line).map fun found => { found with after := found.after ++ [character] } := by
  induction line with
  | nil => exact find?_cons_blank plain blank []
  | cons first line induction =>
      have front : atFront? keys (first :: (line ++ [character])) =
          atFront? keys (first :: line) := by
        rw [atFront?, atFront?, ← List.head?_filter, ← List.head?_filter]
        congr 1
        apply List.filter_congr
        intro key member
        exact standsAt_append_cons (isForeign_of_isBlank (plain key member) blank)
          (first :: line) []
      rw [List.cons_append, find?, find?, front]
      cases known : atFront? keys (first :: line) with
      | some key =>
          have enough := length_le_of_standsAt (standsAt_of_atFront? known)
          have behind : (first :: (line ++ [character])).drop key.length =
              (first :: line).drop key.length ++ [character] :=
            List.drop_append_of_le_length enough
          simp only [behind, Option.map_some]
      | none =>
          rw [induction, Option.map_map, Option.map_map]
          rfl

def reading? {Label : Type} (keys : List (Key Label)) (line : Text) : Option (Key Label × Text) :=
  (find? keys line).map fun found => (found.key, Text.trim found.after)

theorem reading?_trim (line : Text) : reading? keys (Text.trim line) = reading? keys line := by
  apply Text.view_trim
  · intro character line blank
    rw [reading?, find?_cons_blank plain blank, Option.map_map]
    rfl
  · intro character line blank
    rw [reading?, find?_concat_blank plain blank, Option.map_map, reading?]
    simp only [Function.comp_def, Text.trim_concat_blank blank]

end Key

end

end

end LicenseSurvey

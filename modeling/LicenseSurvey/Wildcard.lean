import LicenseSurvey.Text.Basic

/-! # Wildcards

A manifest names files by patterns in which `*` stands for any run of characters
of one line, the slash included, and every other character stands for itself. The
pattern `*` alone matches every path. A pattern that would need too much memory is
refused and then matches nothing.
-/

namespace LicenseSurvey

inductive Wildcard where
  | any
  /-- A pattern that is matched character by character. -/
  | pattern (text : Text)
  /-- A pattern that would need too much memory. -/
  | refused
deriving DecidableEq, Repr

namespace Wildcard

/-! ## Size

A pattern counts as large as the larger of the two automata that read a path from
its front and from its back. A state takes 32 bytes, an arrow between states 4 or,
when it is labelled, 8.
-/

def sizeLimit : Nat := 10485760

/-- The size of the automaton that reads from the front. A star has ten states, and
six states stand around the pattern. -/
def forwardSize (bytes stars : Nat) : Nat := 32 * (bytes + 10 * stars + 6) + 144 * stars

/-- The size of the automaton that reads from the back. A star has 31 states, since
the last byte of a character does not tell how many are in front of it, and four
states stand around the pattern. -/
def backwardSize (bytes stars : Nat) : Nat := 32 * (bytes + 31 * stars + 4) + 48 * stars

def patternSize (text : Text) : Nat :=
  let stars := text.count '*'
  let bytes := Text.size text - stars
  max (forwardSize bytes stars) (backwardSize bytes stars)

def ofText (text : Text) : Wildcard :=
  if text = ['*'] then .any
  else if patternSize text ≤ sizeLimit then .pattern text
  else .refused

/-! ## Matching

The stars cut a pattern into segments. Each segment but the last is sought at its
first place behind the one before it: whatever a later place leaves to the star
behind it, the first place leaves to it too. The last segment stands at the end.
-/

def afterFirst? (segment : Text) : Text → Option Text
  | [] => if segment = [] then some [] else none
  | character :: rest =>
      match Text.dropFront? segment (character :: rest) with
      | some after => some after
      | none => if character = '\n' then none else afterFirst? segment rest

@[simp] theorem afterFirst?_nil (text : Text) : afterFirst? [] text = some text := by
  cases text <;> simp [afterFirst?, Text.dropFront?]

/-- A place that was found cuts the text into a gap, the segment and what follows. -/
theorem eq_append_of_afterFirst? {segment text after : Text}
    (found : afterFirst? segment text = some after) :
    ∃ gap, '\n' ∉ gap ∧ text = gap ++ (segment ++ after) := by
  induction text with
  | nil =>
      rw [afterFirst?] at found
      split at found
      · rename_i equal
        exact ⟨[], by simp, by simp_all⟩
      · simp at found
  | cons character rest induction =>
      rw [afterFirst?] at found
      split at found
      · rename_i here
        cases found
        exact ⟨[], by simp, by simpa using Text.dropFront?_eq_some_iff.mp here⟩
      · split at found
        · simp at found
        · rename_i different
          obtain ⟨gap, inLine, equal⟩ := induction found
          exact ⟨character :: gap, by simp [inLine, Ne.symm different], by simp [equal]⟩

def endsInLine (segment text : Text) : Bool :=
  let gap := text.length - segment.length
  segment.length ≤ text.length && text.drop gap == segment && !(text.take gap).contains '\n'

/-- Whether the segments match a text when a star stands in front of each. -/
def starred : (segments : List Text) → (text : Text) → Bool
  | [], text => text.isEmpty
  | [last], text => endsInLine last text
  | segment :: next :: segments, text =>
      match afterFirst? segment text with
      | some after => starred (next :: segments) after
      | none => false

@[simp] theorem starred_nil_cons (next : Text) (segments : List Text) (text : Text) :
    starred ([] :: next :: segments) text = starred (next :: segments) text := by
  rw [starred, afterFirst?_nil]

def textAccepts (pattern path : Text) : Bool :=
  match Text.splitBy (· == '*') pattern with
  | [] => false
  | first :: segments =>
      match Text.dropFront? first path with
      | some after => starred segments after
      | none => false

def accepts (path : Text) : Wildcard → Bool
  | .any => true
  | .pattern text => textAccepts text path
  | .refused => false

example : textAccepts "src/*.c".toList "src/a/b.c".toList = true ∧
    textAccepts "a?".toList "ab".toList = false := by decide

example : textAccepts "*a*ab".toList "aab".toList = true ∧
    textAccepts "*b".toList "a\nb".toList = false := by decide

end Wildcard

end LicenseSurvey

import LicenseSurvey.Language.Lookup
import LicenseSurvey.Proofs.Comment.Effect
import LicenseSurvey.Proofs.Comment.Marker

/-! # Scanning for markers in context

The markers of a line are found without regard to what is open, and only then read in
context. A scanner could instead look, at each place, for the markers alone that have an
effect there. The two find the same comments as long as no marker without an effect
stands over the beginning of a marker with one; where that happens, the first way of
reading does not see the second marker.
-/

namespace LicenseSurvey

namespace Context

/-! ## The scanner -/

def counted (context : Context) (markers : Markers) : List (Mark × Text) :=
  markers.table.filter fun entry => context.counts entry.1

def scanFrom (markers : Markers) (number : Nat) (context : Context) (position : Nat) :
    Text → List Comment × Context
  | [] => ([], context)
  | character :: rest =>
      match Markers.markAt? (context.counted markers) (character :: rest) with
      | none => scanFrom markers number context (position + character.utf8Size) rest
      | some (mark, marker) =>
          let token : MarkToken := ⟨mark, position, Text.size marker, character :: rest⟩
          let later :=
            if context.takesLine mark then ([], context)
            else
              scanFrom markers number (context.behind token) token.stop
                (rest.drop (marker.length - 1))
          ((completed? markers number context token).toList ++ later.1, later.2)
termination_by text => text.length
decreasing_by
  · simp
  · simp only [List.length_cons, List.length_drop]
    omega

def scanLine (markers : Markers) (number : Nat) (context : Context) (line : Text) :
    List Comment × Context :=
  let (comments, context) := scanFrom markers number (context.enterLine line) 0 line
  (comments, context.leaveLine number)

def scanLines (markers : Markers) (number : Nat) (context : Context) :
    List Text → List Comment × Context
  | [] => ([], context)
  | line :: lines =>
      let (comments, context) := scanLine markers number context line
      let (later, context) := scanLines markers (number + 1) context lines
      (comments ++ later, context)

end Context

def Comment.scan (markers : Markers) (limit : Option Nat) (content : Bytes) : List Comment :=
  (Context.scanLines markers 1 .code (Text.sourceLines limit content)).1

namespace Context

variable {markers : Markers} {number : Nat} {context : Context}

/-! ## Hidden markers -/

def Hides (markers : Markers) (context : Context) (token : MarkToken) : Prop :=
  ∃ covered rest, token.ahead = covered ++ rest ∧ Text.size covered < token.length ∧
    (Markers.markAt? (context.counted markers) rest).isSome

def Undisturbed (markers : Markers) : Context → List MarkToken → Prop
  | _, [] => True
  | context, token :: tokens =>
      if context.counts token.mark then
        context.takesLine token.mark = false →
          Undisturbed markers (context.behind token) tokens
      else ¬context.Hides markers token ∧ Undisturbed markers context tokens

def UndisturbedLines (markers : Markers) (number : Nat) : Context → List Text → Prop
  | _, [] => True
  | context, line :: lines =>
      Undisturbed markers (context.enterLine line) (markers.tokens line) ∧
        UndisturbedLines markers (number + 1) (readLine markers number context line).2 lines

/-! ## Agreement -/

theorem markAt?_counted_of_none {text : Text}
    (absent : Markers.markAt? markers.table text = none) :
    Markers.markAt? (context.counted markers) text = none := by
  rw [Markers.markAt?, List.find?_eq_none] at absent ⊢
  exact fun entry member => absent entry ((List.mem_filter.mp member).1)

theorem markAt?_counted_of_counts {text marker : Text} {mark : Mark}
    (found : Markers.markAt? markers.table text = some (mark, marker))
    (effective : context.counts mark = true) :
    Markers.markAt? (context.counted markers) text = some (mark, marker) := by
  rw [Markers.markAt?, List.find?_eq_some_iff_append] at found
  obtain ⟨stands, before, after, split, others⟩ := found
  have absent : (before.filter fun entry => context.counts entry.1).find?
      (fun entry => Text.startsWith text entry.2) = none := by
    rw [List.find?_eq_none]
    intro entry member
    simpa using others entry ((List.mem_filter.mp member).1)
  rw [Markers.markAt?, counted, split, List.filter_append, List.filter_cons,
    if_pos effective, List.find?_append, absent, Option.none_or]
  exact List.find?_cons_of_pos stands

theorem scanFrom_skip {character : Char} {rest : Text} (position : Nat)
    (absent : Markers.markAt? (context.counted markers) (character :: rest) = none) :
    scanFrom markers number context position (character :: rest) =
      scanFrom markers number context (position + character.utf8Size) rest := by
  rw [scanFrom, absent]

theorem scanFrom_meet {marker after : Text} {mark : Mark} (position : Nat)
    (found : Markers.markAt? (context.counted markers) (marker ++ after) =
      some (mark, marker)) (notNil : marker ≠ []) :
    scanFrom markers number context position (marker ++ after) =
      let token : MarkToken := ⟨mark, position, Text.size marker, marker ++ after⟩
      let later :=
        if context.takesLine mark then ([], context)
        else scanFrom markers number (context.behind token) token.stop after
      ((completed? markers number context token).toList ++ later.1, later.2) := by
  cases marker with
  | nil => exact absurd rfl notNil
  | cons character rest =>
      rw [List.cons_append] at found ⊢
      rw [scanFrom, found]
      simp

theorem scanFrom_append {skipped after : Text} (position : Nat)
    (absent : ∀ covered rest, skipped ++ after = covered ++ rest →
      Text.size covered < Text.size skipped →
      Markers.markAt? (context.counted markers) rest = none) :
    scanFrom markers number context position (skipped ++ after) =
      scanFrom markers number context (position + Text.size skipped) after := by
  induction skipped generalizing position with
  | nil => rfl
  | cons character skipped induction =>
      have positive := character.utf8Size_pos
      have here : Markers.markAt? (context.counted markers)
          (character :: (skipped ++ after)) = none :=
        absent [] _ rfl (by rw [Text.size_nil, Text.size_cons]; omega)
      rw [List.cons_append, scanFrom_skip position here, induction, Text.size_cons,
        Nat.add_assoc]
      intro covered rest equal shorter
      refine absent (character :: covered) rest ?_ ?_
      · rw [List.cons_append, equal, List.cons_append]
      · rw [Text.size_cons, Text.size_cons]
        omega

/-- Where no marker is hidden, looking for markers in context finds the same comments
as reading all markers in context afterwards. -/
theorem scanFrom_eq_readTokens {position : Nat} {text : Text}
    (clear : Undisturbed markers context (Markers.tokensFrom markers.table position text)) :
    scanFrom markers number context position text =
      readTokens markers number context
        (Markers.tokensFrom markers.table position text) := by
  induction text using Markers.induction_markAt? markers generalizing position context with
  | nil => simp [scanFrom]
  | skip character rest stands induction =>
      rw [Markers.tokensFrom_skip stands] at clear ⊢
      rw [scanFrom_skip position (markAt?_counted_of_none stands)]
      exact induction clear
  | meet mark marker after stands induction =>
      rw [Markers.tokensFrom_meet stands] at clear ⊢
      cases counts : context.counts mark with
      -- The scanner passes over the marker character by character.
      | false =>
          rw [Undisturbed, if_neg (by simp [counts])] at clear
          obtain ⟨visible, clear⟩ := clear
          rw [readTokens_of_not_counts markers number counts, ← induction clear]
          apply scanFrom_append position
          intro covered rest equal shorter
          cases found : Markers.markAt? (context.counted markers) rest with
          | none => rfl
          | some entry => exact absurd ⟨covered, rest, equal, shorter, by simp [found]⟩ visible
      | true =>
          rw [Undisturbed, if_pos counts] at clear
          rw [readTokens_cons,
            scanFrom_meet position (markAt?_counted_of_counts stands counts)
              (Markers.marker_ne_nil (Markers.mem_of_markAt? stands))]
          cases takes : context.takesLine mark with
          | true => simp
          | false => simp only [MarkToken.stop, induction (clear takes)]

theorem scanLine_eq_readLine {line : Text}
    (clear : Undisturbed markers (context.enterLine line) (markers.tokens line)) :
    scanLine markers number context line = readLine markers number context line := by
  rw [scanLine, readLine, Markers.tokens, scanFrom_eq_readTokens clear]

theorem scanLines_eq_readLines {lines : List Text}
    (clear : UndisturbedLines markers number context lines) :
    scanLines markers number context lines = readLines markers number context lines := by
  induction lines generalizing number context with
  | nil => rfl
  | cons line lines induction =>
      obtain ⟨here, later⟩ := clear
      rw [scanLines, readLines, scanLine_eq_readLine here]
      simp only [induction later]

end Context

end LicenseSurvey

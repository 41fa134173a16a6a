import LicenseSurvey.Proofs.Comment.Marker
import LicenseSurvey.Proofs.Text.Slice
import Mathlib.Data.List.Chain

/-! # The tokens of a line

The tokens of a line are described without the search that finds them: which marker stands at
a token, how the tokens follow one another, and that no marker is left over between them. There
is just one list of tokens that this describes, and it is the one that the search gives.
-/

namespace LicenseSurvey

def Mark.rank : Mark → Nat
  | .lineComment => 0
  | .blockOpening => 1
  | .blockClosing => 2
  | .quotation .single => 3
  | .quotation .double => 4
  | .quotation .backtick => 5

theorem Mark.eq_of_rank_eq {mark other : Mark} (same : mark.rank = other.rank) : mark = other := by
  rcases mark with - | - | - | ⟨- | - | -⟩ <;> rcases other with - | - | - | ⟨- | - | -⟩ <;>
    first | rfl | exact absurd same (by decide)

namespace MarkToken

def Covers (token : MarkToken) (position : Nat) : Prop :=
  token.position ≤ position ∧ position < token.stop

def Precedes (earlier later : MarkToken) : Prop :=
  earlier.position < earlier.stop ∧ earlier.stop ≤ later.position

instance : Trans Precedes Precedes Precedes where
  trans first second := ⟨first.1, by
    have between := first.2
    have proper := second.1
    have further := second.2
    omega⟩

end MarkToken

namespace Markers

variable {markers : Markers} {mark : Mark} {marker text : Text}

/-! ## Markers that stand at a place -/

def marker? (markers : Markers) : Mark → Option Text
  | .lineComment => markers.line
  | .blockOpening => markers.block.map BlockMarkers.opening
  | .blockClosing => markers.block.map BlockMarkers.closing
  | .quotation quote => if markers.hasQuote quote then some quote.text else none

def Stands (markers : Markers) (mark : Mark) (text : Text) : Prop :=
  ∃ marker, markers.marker? mark = some marker ∧ marker ≠ [] ∧ marker <+: text

structure StandsFirst (markers : Markers) (mark : Mark) (marker text : Text) : Prop where
  known : markers.marker? mark = some marker
  notEmpty : marker ≠ []
  starts : marker <+: text
  first : ∀ other, other.rank < mark.rank → ¬markers.Stands other text

theorem StandsFirst.stands (first : markers.StandsFirst mark marker text) :
    markers.Stands mark text :=
  ⟨marker, first.known, first.notEmpty, first.starts⟩

theorem StandsFirst.unique {other : Mark} {otherMarker : Text}
    (first : markers.StandsFirst mark marker text)
    (second : markers.StandsFirst other otherMarker text) :
    mark = other ∧ marker = otherMarker := by
  have notBefore : ¬other.rank < mark.rank := fun before => first.first other before second.stands
  have notBehind : ¬mark.rank < other.rank := fun before => second.first mark before first.stands
  have same : mark = other := Mark.eq_of_rank_eq (by omega)
  subst same
  exact ⟨rfl, Option.some.inj (first.known.symm.trans second.known)⟩

/-! ## The table -/

theorem mem_table_iff :
    (mark, marker) ∈ markers.table ↔ markers.marker? mark = some marker ∧ marker ≠ [] := by
  cases mark with
  | lineComment => exact lineComment_mem_table_iff
  | blockOpening =>
      rw [blockOpening_mem_table_iff, marker?, Option.map_eq_some_iff]
      simp only [eq_comm]
  | blockClosing =>
      rw [blockClosing_mem_table_iff, marker?, Option.map_eq_some_iff]
      simp only [eq_comm]
  | quotation quote =>
      rw [marker?, Option.ite_none_right_eq_some, Option.some.injEq, eq_comm (b := marker)]
      cases quote <;> simp [table, quoteMarker]

theorem pairwise_rank_table (markers : Markers) :
    markers.table.Pairwise fun earlier later => earlier.1.rank < later.1.rank := by
  rcases markers with ⟨line, block, single, double, backtick⟩
  apply List.Pairwise.filter
  cases line <;> cases block <;> cases single <;> cases double <;> cases backtick <;>
    simp [quoteMarker, hasQuote, Mark.rank]

theorem markAt?_eq_none_iff :
    markAt? markers.table text = none ↔ ∀ mark, ¬markers.Stands mark text := by
  rw [markAt?, List.find?_eq_none]
  constructor
  · intro absent mark stands
    rcases stands with ⟨marker, known, notEmpty, rest, rfl⟩
    exact absent _ (mem_table_iff.mpr ⟨known, notEmpty⟩) (Text.startsWith_append marker rest)
  · intro absent entry member starts
    rcases mem_table_iff.mp member with ⟨known, notEmpty⟩
    rcases Text.startsWith_iff.mp starts with ⟨rest, rfl⟩
    exact absent entry.1 ⟨entry.2, known, notEmpty, List.prefix_append entry.2 rest⟩

theorem standsFirst_of_markAt? (found : markAt? markers.table text = some (mark, marker)) :
    markers.StandsFirst mark marker text := by
  rcases mem_table_iff.mp (mem_of_markAt? found) with ⟨known, notEmpty⟩
  rcases eq_append_of_markAt? found with ⟨rest, whole⟩
  refine ⟨known, notEmpty, ⟨rest, whole.symm⟩, ?_⟩
  intro other before stands
  rcases stands with ⟨otherMarker, otherKnown, otherNotEmpty, behind, rfl⟩
  -- The other marker stands in the table in front of this one, where the search passed it.
  rcases List.find?_eq_some_iff_append.mp found with ⟨-, ahead, later, split, absent⟩
  have member := mem_table_iff.mpr ⟨otherKnown, otherNotEmpty⟩
  have ranked := pairwise_rank_table markers
  rw [split] at member ranked
  rcases List.mem_append.mp member with passed | notPassed
  · have starts := absent _ passed
    rw [Text.startsWith_append otherMarker behind] at starts
    exact Bool.noConfusion starts
  · rcases List.mem_cons.mp notPassed with same | inLater
    · rw [Prod.mk.injEq] at same
      rw [same.1] at before
      exact absurd before (Nat.lt_irrefl _)
    · have behindIt := (List.pairwise_cons.mp (List.pairwise_append.mp ranked).2.1).1 _ inLater
      exact absurd before (Nat.lt_asymm behindIt)

/-! ## The tokens of a text -/

def IsCutFrom (markers : Markers) (position : Nat) (text : Text) (token : MarkToken) : Prop :=
  ∃ front marker, text = front ++ token.ahead ∧ token.position = position + Text.size front ∧
    token.length = Text.size marker ∧ markers.StandsFirst token.mark marker token.ahead

structure IsScan (markers : Markers) (position : Nat) (text : Text) (tokens : List MarkToken) :
    Prop where
  ordered : tokens.IsChain MarkToken.Precedes
  cut : ∀ token ∈ tokens, markers.IsCutFrom position text token
  /-- Outside the tokens no marker stands, neither between two characters nor at an end. -/
  complete : ∀ front ahead, text = front ++ ahead →
    (∀ token ∈ tokens, ¬token.Covers (position + Text.size front)) →
      ∀ mark, ¬markers.Stands mark ahead

section

variable {position : Nat} {between after : Text} {tokens : List MarkToken} {token : MarkToken}

namespace IsCutFrom

theorem position_lt_stop (cut : markers.IsCutFrom position text token) :
    position ≤ token.position ∧ token.position < token.stop := by
  rcases cut with ⟨front, marker, -, placed, long, first⟩
  have positive := Text.size_pos first.notEmpty
  rw [MarkToken.stop]
  omega

theorem append (cut : markers.IsCutFrom (position + Text.size between) text token) :
    markers.IsCutFrom position (between ++ text) token := by
  rcases cut with ⟨front, marker, whole, placed, long, first⟩
  refine ⟨between ++ front, marker, ?_, ?_, long, first⟩
  · rw [List.append_assoc, ← whole]
  · rw [Text.size_append, ← Nat.add_assoc, placed]

theorem of_append (cut : markers.IsCutFrom position (between ++ text) token)
    (behind : position + Text.size between ≤ token.position) :
    markers.IsCutFrom (position + Text.size between) text token := by
  rcases cut with ⟨front, marker, whole, placed, long, first⟩
  rcases Text.exists_of_append_eq whole (by omega) with ⟨further, rfl, split⟩
  rw [Text.size_append, ← Nat.add_assoc] at placed
  exact ⟨further, marker, split, placed, long, first⟩

theorem eq_of_standsFirst (cut : markers.IsCutFrom position text token)
    (begins : token.position = position) (first : markers.StandsFirst mark marker text) :
    token = ⟨mark, position, Text.size marker, text⟩ := by
  rcases token with ⟨tokenMark, start, length, ahead⟩
  rcases cut with ⟨front, other, whole, placed, long, second⟩
  simp only at begins whole placed long second
  cases front with
  | nil =>
      rw [List.nil_append] at whole
      subst whole
      rcases second.unique first with ⟨rfl, rfl⟩
      rw [begins, long]
  | cons character front =>
      have positive := character.utf8Size_pos
      rw [Text.size_cons] at placed
      omega

end IsCutFrom

namespace IsScan

theorem nil (markers : Markers) (position : Nat) : markers.IsScan position [] [] where
  ordered := .nil
  cut := by simp
  complete := by
    intro front ahead whole _ mark stands
    rcases stands with ⟨marker, -, notEmpty, starts⟩
    rw [(List.append_eq_nil_iff.mp whole.symm).2, List.prefix_nil] at starts
    exact notEmpty starts

theorem eq_nil (scan : markers.IsScan position [] tokens) : tokens = [] := by
  apply List.eq_nil_iff_forall_not_mem.mpr
  intro token member
  rcases scan.cut token member with ⟨front, marker, whole, -, -, first⟩
  have starts := first.starts
  rw [(List.append_eq_nil_iff.mp whole.symm).2, List.prefix_nil] at starts
  exact first.notEmpty starts

theorem behind {earlier : List MarkToken}
    (scan : markers.IsScan position (between ++ text) (earlier ++ tokens))
    (inFront : ∀ token ∈ earlier, token.stop ≤ position + Text.size between)
    (notInFront : ∀ token ∈ tokens, position + Text.size between ≤ token.position) :
    markers.IsScan (position + Text.size between) text tokens where
  ordered := (List.isChain_append.mp scan.ordered).2.1
  cut := fun token member =>
    (scan.cut token (List.mem_append_right earlier member)).of_append (notInFront token member)
  complete := by
    intro front ahead whole outside
    apply scan.complete (between ++ front) ahead
    · rw [whole, List.append_assoc]
    · rw [Text.size_append, ← Nat.add_assoc, List.forall_mem_append]
      refine ⟨?_, outside⟩
      intro token member covers
      have ends := inFront token member
      have reaches := covers.2
      omega

theorem cons_iff {character : Char} {rest : Text}
    (absent : ∀ mark, ¬markers.Stands mark (character :: rest)) :
    markers.IsScan position (character :: rest) tokens ↔
      markers.IsScan (position + character.utf8Size) rest tokens := by
  constructor
  · intro scan
    have whole : markers.IsScan position ([character] ++ rest) ([] ++ tokens) := scan
    apply whole.behind (by simp)
    intro token member
    rcases scan.cut token member with ⟨front, marker, whole, placed, -, first⟩
    cases front with
    | nil =>
        rw [List.nil_append] at whole
        exact absurd (whole ▸ first.stands) (absent token.mark)
    | cons head front =>
        rw [List.cons_append, List.cons.injEq] at whole
        rw [placed, whole.1, Text.size_cons, Text.size_cons, Text.size_nil]
        omega
  · intro scan
    refine ⟨scan.ordered, ?_, ?_⟩
    · intro token member
      have cut : markers.IsCutFrom (position + Text.size [character]) rest token :=
        scan.cut token member
      exact cut.append
    · intro front ahead whole outside
      cases front with
      | nil =>
          rw [List.nil_append] at whole
          exact whole ▸ absent
      | cons head front =>
          rw [List.cons_append, List.cons.injEq] at whole
          rcases whole with ⟨rfl, whole⟩
          rw [Text.size_cons, ← Nat.add_assoc] at outside
          exact scan.complete front ahead whole outside

theorem cons (first : markers.StandsFirst mark marker (marker ++ after))
    (scan : markers.IsScan (position + Text.size marker) after tokens) :
    markers.IsScan position (marker ++ after)
      (⟨mark, position, Text.size marker, marker ++ after⟩ :: tokens) where
  ordered := by
    apply (List.isChain_cons_iff _ _ _).mpr
    cases tokens with
    | nil => exact .inl rfl
    | cons next later =>
        refine .inr ⟨next, later, ⟨?_, ?_⟩, scan.ordered, rfl⟩
        · exact Nat.lt_add_of_pos_right (Text.size_pos first.notEmpty)
        · exact (scan.cut next (List.mem_cons_self ..)).position_lt_stop.1
  cut := by
    rw [List.forall_mem_cons]
    refine ⟨⟨[], marker, rfl, rfl, rfl, first⟩, ?_⟩
    exact fun token member => (scan.cut token member).append
  complete := by
    intro front ahead whole outside
    rcases List.forall_mem_cons.mp outside with ⟨notHere, notLater⟩
    have atMost : Text.size marker ≤ Text.size front := by
      by_contra shorter
      apply notHere
      refine ⟨Nat.le_add_right _ _, ?_⟩
      simp only [MarkToken.stop]
      omega
    rcases Text.exists_of_append_eq whole atMost with ⟨further, rfl, split⟩
    rw [Text.size_append, ← Nat.add_assoc] at notLater
    exact scan.complete further ahead split notLater

/-- Where a marker stands first, in front of all tokens, its token is the first of them. -/
theorem exists_eq_cons (first : markers.StandsFirst mark marker (marker ++ after))
    (scan : markers.IsScan position (marker ++ after) tokens) :
    ∃ later, tokens = ⟨mark, position, Text.size marker, marker ++ after⟩ :: later ∧
      markers.IsScan (position + Text.size marker) after later := by
  have covered : ∃ token ∈ tokens, token.Covers position := by
    by_contra none
    apply scan.complete [] (marker ++ after) rfl _ mark first.stands
    intro token member covers
    exact none ⟨token, member, covers⟩
  rcases covered with ⟨token, member, atMost, -⟩
  have atLeast := (scan.cut token member).position_lt_stop.1
  have here := (scan.cut token member).eq_of_standsFirst (Nat.le_antisymm atMost atLeast) first
  cases tokens with
  | nil => cases member
  | cons head later =>
      -- A token in front of the one that is here would have to begin in front of the text.
      have isHead : head = token := by
        rcases List.mem_cons.mp member with same | inLater
        · exact same.symm
        · rcases scan.ordered.rel_cons inLater with ⟨proper, ends⟩
          have begins := (scan.cut head (List.mem_cons_self ..)).position_lt_stop.1
          omega
      rw [isHead, here] at scan ⊢
      have split : markers.IsScan position (marker ++ after)
          ([⟨mark, position, Text.size marker, marker ++ after⟩] ++ later) := scan
      refine ⟨later, rfl, split.behind ?_ ?_⟩
      · simp [MarkToken.stop]
      · exact fun next inLater => (scan.ordered.rel_cons inLater).2

end IsScan

theorem isScan_iff :
    markers.IsScan position text tokens ↔ tokens = tokensFrom markers.table position text := by
  induction text using induction_markAt? markers generalizing position tokens with
  | nil =>
      rw [tokensFrom_nil]
      constructor
      · exact IsScan.eq_nil
      · intro empty
        exact empty ▸ IsScan.nil markers position
  | skip character rest found induction =>
      rw [IsScan.cons_iff (markAt?_eq_none_iff.mp found), tokensFrom_skip found, induction]
  | meet mark marker after found induction =>
      have first := standsFirst_of_markAt? found
      rw [tokensFrom_meet found]
      constructor
      · intro scan
        rcases scan.exists_eq_cons first with ⟨later, rfl, behind⟩
        rw [induction.mp behind]
      · intro same
        exact same ▸ (induction.mpr rfl).cons first

theorem length_tokensFrom_le (markers : Markers) (position : Nat) (text : Text) :
    (tokensFrom markers.table position text).length ≤ text.length := by
  induction text using induction_markAt? markers generalizing position with
  | nil => simp
  | skip character rest found induction =>
      rw [tokensFrom_skip found]
      exact Nat.le_succ_of_le (induction _)
  | meet mark marker after found induction =>
      have notNil := (standsFirst_of_markAt? found).notEmpty
      have positive := List.length_pos_iff.mpr notNil
      have later := induction (position + Text.size marker)
      rw [tokensFrom_meet found, List.length_cons, List.length_append]
      omega

end

/-- The tokens of a line are in order and apart from one another, at each of them stands the
first marker that is tried there, and outside of them stands none. The search finds the one list
that has these properties. Its tokens begin and end between characters, and there are not more
of them than characters. -/
theorem line_has_one_scan (markers : Markers) (line : Text) :
    (∀ tokens, markers.IsScan 0 line tokens ↔ tokens = markers.tokens line) ∧
      (∀ token ∈ markers.tokens line,
        Text.IsBoundary line token.position ∧ Text.IsBoundary line token.stop) ∧
      (markers.tokens line).length ≤ line.length := by
  refine ⟨fun tokens => isScan_iff, ?_, length_tokensFrom_le markers 0 line⟩
  intro token member
  have scan : markers.IsScan 0 line (markers.tokens line) := isScan_iff.mpr rfl
  rcases scan.cut token member with ⟨front, marker, whole, placed, long, first⟩
  rcases first.starts with ⟨behind, split⟩
  rw [Nat.zero_add] at placed
  rw [MarkToken.stop, placed, long, whole, ← split]
  refine ⟨Text.isBoundary_size front _, ?_⟩
  rw [← Text.size_append, ← List.append_assoc]
  exact Text.isBoundary_size (front ++ marker) behind

end Markers

end LicenseSurvey

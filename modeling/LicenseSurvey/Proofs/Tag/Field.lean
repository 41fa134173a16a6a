import LicenseSurvey.Proofs.Tag.Partition
import LicenseSurvey.Proofs.Text.Affix
import LicenseSurvey.Proofs.Text.Row

/-! # Fields

A field is a key with some rows: the first row stands behind the key, the further ones
are indented below it. The field is read back as one tag unless a further row holds a key
too, and the shape of the key says which value its rows make.
-/

namespace LicenseSurvey

namespace Text

structure IsRow (text : Text) : Prop where
  notEmpty : text ≠ []
  trimmed : trim text = text
  noFeed : '\n' ∉ text

instance (text : Text) : Decidable text.IsRow :=
  decidable_of_iff (text ≠ [] ∧ trim text = text ∧ '\n' ∉ text)
    ⟨fun ⟨notEmpty, trimmed, noFeed⟩ => ⟨notEmpty, trimmed, noFeed⟩,
      fun isRow => ⟨isRow.notEmpty, isRow.trimmed, isRow.noFeed⟩⟩

theorem IsRow.getLast?_ne {row : Text} (isRow : row.IsRow) : row.getLast? ≠ some '\r' := by
  intro returns
  exact Bool.noConfusion (not_isBlank_of_getLast? isRow.trimmed returns)

def IsUnwrapped (text : Text) : Prop :=
  ¬"<text>".toList <+: text ∧ ¬"</text>".toList <:+ text

instance (text : Text) : Decidable text.IsUnwrapped :=
  inferInstanceAs (Decidable (¬"<text>".toList <+: text ∧ ¬"</text>".toList <:+ text))

theorem unwrapped_eq_self {text : Text} (trimmed : trim text = text)
    (plain : text.IsUnwrapped) : Segment.unwrapped text = text := by
  rw [Segment.unwrapped, trimmed, withoutFront_of_not_prefix plain.1,
    withoutBack_of_not_suffix plain.2, trimmed]

/-- Whether joined rows are unwrapped is seen from the first row and the last one. -/
theorem isUnwrapped_join_congr {left right : List Text} (first : left.head? = right.head?)
    (last : left.getLast? = right.getLast?) :
    (join ['\n'] left).IsUnwrapped ↔ (join ['\n'] right).IsUnwrapped := by
  have opening : '\n' ∉ "<text>".toList := by decide
  have closing : '\n' ∉ "</text>".toList := by decide
  apply and_congr
  · cases left with
    | nil => rw [List.head?_eq_none_iff.mp (first.symm.trans List.head?_nil)]
    | cons row left =>
        obtain ⟨right, rfl⟩ := List.head?_eq_some_iff.mp (first.symm.trans List.head?_cons)
        rw [prefix_join_iff opening, prefix_join_iff opening]
  · rcases List.eq_nil_or_concat left with rfl | ⟨left, row, rfl⟩
    · rw [List.getLast?_eq_none_iff.mp (last.symm.trans List.getLast?_nil)]
    · rw [List.concat_eq_append] at last ⊢
      obtain ⟨right, rfl⟩ := List.getLast?_eq_some_iff.mp (last.symm.trans List.getLast?_concat)
      rw [suffix_join_iff closing, suffix_join_iff closing]

theorem trim_join_of_isRow {rows : List Text} (each : ∀ row ∈ rows, row.IsRow)
    (separator : Text) : trim (join separator rows) = join separator rows := by
  apply trim_join fun row member => (each row member).trimmed
  · intro empty
    exact (each [] (List.mem_of_mem_head? empty)).notEmpty rfl
  · intro empty
    exact (each [] (List.mem_of_mem_getLast? empty)).notEmpty rfl

theorem isRow_join {rows : List Text} (each : ∀ row ∈ rows, row.IsRow) (notEmpty : rows ≠ [])
    {separator : Text} (noFeed : '\n' ∉ separator) : (join separator rows).IsRow where
  notEmpty := by
    obtain ⟨first, further, rfl⟩ := List.exists_cons_of_ne_nil notEmpty
    exact join_ne_nil (each first (List.mem_cons_self ..)).notEmpty further
  trimmed := trim_join_of_isRow each separator
  noFeed := notMem_join noFeed fun row member => (each row member).noFeed

theorem IsWord.isRow {text : Text} (word : text.IsWord) : text.IsRow where
  notEmpty := word.notEmpty
  trimmed := by
    apply trim_eq_self
    · exact fun character first => word.plain character (List.mem_of_mem_head? first)
    · exact fun character last => word.plain character (List.mem_of_mem_getLast? last)
  noFeed := fun feed => Bool.noConfusion (word.plain '\n' feed)

end Text

section

variable {Label : Type} {keys : List (Key Label)} {key : Key Label}

/-! ## Rows without a key -/

/-- No key of the table stands in the row with its colon, in any letter case. -/
def Key.IsAbsent {Label : Type} (keys : List (Key Label)) (row : Text) : Prop :=
  ∀ key ∈ keys, ¬Text.lower (key.name ++ [':']) <:+: Text.lower row

instance (keys : List (Key Label)) (row : Text) : Decidable (Key.IsAbsent keys row) :=
  inferInstanceAs (Decidable (∀ key ∈ keys, ¬Text.lower (key.name ++ [':']) <:+: Text.lower row))

namespace Key

theorem lower_prefix_of_standsAt {text : Text} (named : key.shape ≠ .marker)
    (stands : key.standsAt text = true) :
    Text.lower (key.name ++ [':']) <+: Text.lower text := by
  rcases standsAt_iff.mp stands with ⟨-, written, behind, rfl, same, ends⟩
  rcases List.head?_eq_some_iff.mp (ends.resolve_left named) with ⟨rest, rfl⟩
  refine ⟨Text.lower rest, ?_⟩
  simpa [Text.lower] using same.symm

theorem find?_of_isAbsent (named : ∀ key ∈ keys, key.shape ≠ .marker) {row : Text}
    (absent : IsAbsent keys row) : find? keys row = none := by
  induction row with
  | nil => rfl
  | cons character rest induction =>
      have front : atFront? keys (character :: rest) = none := by
        apply List.find?_eq_none.mpr
        intro key member stands
        exact absent key member (lower_prefix_of_standsAt (named key member) stands).isInfix
      have behind : IsAbsent keys rest := by
        intro key member inside
        exact absent key member (List.infix_cons inside)
      rw [find?, front, induction behind]
      rfl

/-! ## Written fields -/

def lines {Label : Type} (key : Key Label) : (rows : List Text) → List Text
  | [] => []
  | first :: further => (key.name ++ ':' :: ' ' :: first) :: further.map (' ' :: ·)

end Key

def Tag.ofRows? {Label : Type} (key : Key Label) : (rows : List Text) → Option (Tag Label)
  | [] => none
  | first :: further => Segment.tag? ⟨key, first, further⟩

theorem Segment.tag?_indented (key : Key Label) (first : Text) (further : List Text) :
    tag? ⟨key, ' ' :: first, further⟩ = Tag.ofRows? key (first :: further) := by
  rw [Tag.ofRows?, ← tag?_map_trim rfl, tag?_map_trim (Text.trim_cons_blank (by decide) first)]

theorem Tag.ofLines_lines
    (plain : ∀ key ∈ keys, ∀ letter ∈ key.name, Text.isBlank letter = false)
    (named : ∀ key ∈ keys, key.shape ≠ .marker)
    (stands : ∀ rest, Key.find? keys (key.name ++ ':' :: rest) = some ⟨key, [], rest⟩)
    {rows : List Text} (absent : ∀ row ∈ rows.tail, Key.IsAbsent keys row) :
    Tag.ofLines keys (key.lines rows) = (Tag.ofRows? key rows).toList := by
  cases rows with
  | nil => rfl
  | cons first further =>
      have blank : Text.isBlank ' ' = true := by decide
      have silent : ∀ line ∈ further.map (' ' :: ·), Key.find? keys line = none := by
        intro line member
        obtain ⟨row, among, rfl⟩ := List.mem_map.mp member
        rw [Key.find?_cons_blank plain blank, Key.find?_of_isAbsent named (absent row among)]
        rfl
      have indented : (further.map (' ' :: ·)).map Text.trim = further.map Text.trim := by
        rw [List.map_map]
        exact List.map_congr_left fun row _ => Text.trim_cons_blank blank row
      let part : KeyedLines keys := ⟨_, _, _, stands (' ' :: first), silent⟩
      have segment : part.segment = ⟨key, ' ' :: first, further.map (' ' :: ·)⟩ := rfl
      calc Tag.ofLines keys part.lines
          = part.segment.tag?.toList := ofLines_keyedLines part
        _ = (Tag.ofRows? key (first :: further)).toList := by
            rw [segment, ← Segment.tag?_map_trim rfl, indented, Segment.tag?_map_trim rfl,
              Segment.tag?_indented]

/-! ## The value of a field -/

section

variable {row : Text} {rows : List Text}

theorem Segment.trimmedLines_eq {first : Text} {further : List Text} (notEmpty : first ≠ [])
    (trimmed : ∀ row ∈ first :: further, Text.trim row = row) :
    trimmedLines ⟨key, first, further⟩ = first :: further := by
  obtain ⟨here, later⟩ := List.forall_mem_cons.mp trimmed
  rw [trimmedLines, here, if_neg notEmpty, List.map_congr_left later, List.map_id',
    List.singleton_append]

theorem Segment.trimmedLines_of_isRow {first : Text} {further : List Text}
    (each : ∀ row ∈ first :: further, row.IsRow) :
    trimmedLines ⟨key, first, further⟩ = first :: further :=
  trimmedLines_eq (each first (List.mem_cons_self ..)).notEmpty
    fun row member => (each row member).trimmed

theorem Tag.ofRows?_of_line (shape : key.shape = .line) (isRow : row.IsRow) :
    ofRows? key [row] = some ⟨key.label, .text row⟩ := by
  simp [ofRows?, Segment.tag?, Segment.value?, shape, Segment.nonemptyText?, isRow.trimmed,
    isRow.notEmpty]

theorem Tag.ofRows?_of_words (shape : key.shape = .words) (someWord : Text.words row ≠ []) :
    ofRows? key [row] = some ⟨key.label, .list (Text.words row)⟩ := by
  simp [ofRows?, Segment.tag?, Segment.value?, shape, Segment.nonemptyList?, someWord]

theorem Tag.ofRows?_of_lines (shape : key.shape = .lines) (each : ∀ row ∈ rows, row.IsRow)
    (notEmpty : rows ≠ []) : ofRows? key rows = some ⟨key.label, .list rows⟩ := by
  have full : rows.filter (!·.isEmpty) = rows := by
    rw [List.filter_eq_self]
    intro row member
    simpa using (each row member).notEmpty
  obtain ⟨first, further, rfl⟩ := List.exists_cons_of_ne_nil notEmpty
  simp only [ofRows?, Segment.tag?, Segment.value?, shape, Segment.trimmedLines_of_isRow each, full,
    Segment.nonemptyList?, notEmpty, if_false, Option.map_some]

theorem Tag.ofRows?_of_formatted (shape : key.shape = .formatted)
    (each : ∀ row ∈ rows, row.IsRow) (notEmpty : rows ≠ [])
    (plain : (Text.join ['\n'] rows).IsUnwrapped) :
    ofRows? key rows = some ⟨key.label, .text (Text.join ['\n'] rows)⟩ := by
  obtain ⟨first, further, rfl⟩ := List.exists_cons_of_ne_nil notEmpty
  have value : Text.join ['\n'] (first :: further) ≠ [] :=
    Text.join_ne_nil (each first (List.mem_cons_self ..)).notEmpty further
  simp only [ofRows?, Segment.tag?, Segment.value?, shape, Segment.trimmedLines_of_isRow each,
    Text.unwrapped_eq_self (Text.trim_join_of_isRow each ['\n']) plain, Segment.nonemptyText?,
    value, if_false, Option.map_some]

end

end

end LicenseSurvey

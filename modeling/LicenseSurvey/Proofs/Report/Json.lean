import LicenseSurvey.Report.Json
import Mathlib.Data.Nat.Digits.Defs

/-! # Reading documents back

A written document is read back as the document it was, and so no two documents are written
alike. Blanks between the parts of a document say nothing. A number ends where its characters
end, so a document is proper if its numbers consist of such characters.
-/

namespace LicenseSurvey

namespace Json

/-! ## Reading -/

def isBlank (character : Char) : Bool := [' ', '\t', '\n', '\r'].contains character

def isNumberPart (character : Char) : Bool :=
  character.isDigit || ['-', '+', '.', 'e', 'E'].contains character

def skip (text : Text) : Text := text.dropWhile isBlank

def expect (mark : Char) (text : Text) : Option Text :=
  match skip text with
  | [] => none
  | first :: rest => if first = mark then some rest else none

def hexValue (digit : Char) : Nat :=
  if digit.isDigit then digit.toNat - '0'.toNat else digit.toNat - 'a'.toNat + 10

def unescaped : (mark : Char) → Char
  | 'b' => '\x08'
  | 't' => '\t'
  | 'n' => '\n'
  | 'f' => '\x0c'
  | 'r' => '\r'
  | other => other

/-- The content of a text behind its opening quote, and what is behind its closing one. -/
def readText : Text → Option (Text × Text)
  | [] => none
  | '"' :: rest => some ([], rest)
  | '\\' :: 'u' :: '0' :: '0' :: high :: low :: rest =>
      (readText rest).map (Prod.map (Char.ofNat (16 * hexValue high + hexValue low) :: ·) id)
  | '\\' :: mark :: rest => (readText rest).map (Prod.map (unescaped mark :: ·) id)
  | character :: rest => (readText rest).map (Prod.map (character :: ·) id)

def readNumber (text : Text) : Option (Text × Text) :=
  if text.takeWhile isNumberPart = [] then none
  else some (text.takeWhile isNumberPart, text.dropWhile isNumberPart)

/-- The items of a sequence, of which there is one at least, and what is behind its end. -/
def readSequence {Item : Type} (closing : Char) (readItem : Text → Option (Item × Text)) :
    (fuel : Nat) → Text → Option (List Item × Text)
  | 0, _ => none
  | fuel + 1, input => do
      let (first, rest) ← readItem input
      match expect ',' rest with
      | some rest =>
          (readSequence closing readItem fuel rest).map (Prod.map (first :: ·) id)
      | none => (expect closing rest).map fun after => ([first], after)

def readItems {Item : Type} (closing : Char) (readItem : Text → Option (Item × Text))
    (fuel : Nat) (input : Text) : Option (List Item × Text) :=
  match expect closing input with
  | some after => some ([], after)
  | none => readSequence closing readItem fuel input

def readField (readValue : Text → Option (Json × Text)) (input : Text) :
    Option ((Text × Json) × Text) := do
  let rest ← expect '"' input
  let (name, rest) ← readText rest
  let rest ← expect ':' rest
  (readValue rest).map (Prod.map (name, ·) id)

/-- The document at the front of a text, and what is behind it. -/
def readValue : (fuel : Nat) → Text → Option (Json × Text)
  | 0, _ => none
  | fuel + 1, input =>
      match skip input with
      | 'n' :: 'u' :: 'l' :: 'l' :: rest => some (.null, rest)
      | '"' :: rest => (readText rest).map (Prod.map .text id)
      | '[' :: rest => (readItems ']' (readValue fuel) fuel rest).map (Prod.map .list id)
      | '\x7b' :: rest =>
          (readItems '\x7d' (readField (readValue fuel)) fuel rest).map (Prod.map .object id)
      | other => (readNumber other).map (Prod.map .number id)

-- Every call of a reader has a character of its own, so the length of the text is enough fuel.
def read? (text : Text) : Option Json :=
  match readValue text.length text with
  | some (document, rest) => if skip rest = [] then some document else none
  | none => none

/-! ## Blanks and marks -/

theorem skip_cons_of_not_blank {first : Char} {rest : Text} (notBlank : isBlank first = false) :
    skip (first :: rest) = first :: rest := by
  simp [skip, notBlank]

@[simp] theorem skip_newLine_append (level : Nat) (text : Text) :
    skip (newLine level ++ text) = skip text := by
  apply List.dropWhile_append_of_pos
  intro character member
  rcases List.mem_cons.mp member with rfl | member
  · rfl
  · rw [List.eq_of_mem_replicate member]
    rfl

@[simp] theorem skip_space_cons (text : Text) : skip (' ' :: text) = skip text := rfl

@[simp] theorem expect_newLine_append (mark : Char) (level : Nat) (text : Text) :
    expect mark (newLine level ++ text) = expect mark text := by
  rw [expect, skip_newLine_append, expect]

@[simp] theorem expect_cons {mark first : Char} {rest : Text} (notBlank : isBlank first = false) :
    expect mark (first :: rest) = if first = mark then some rest else none := by
  rw [expect, skip_cons_of_not_blank notBlank]

/-! ## Texts -/

theorem hexValue_digitChar : ∀ digit < 16, hexValue (Nat.digitChar digit) = digit := by
  decide

theorem readText_of_plain {character : Char} {rest : Text} (notQuote : character ≠ '"')
    (notBackslash : character ≠ '\\') :
    readText (character :: rest) = (readText rest).map (Prod.map (character :: ·) id) := by
  rw [readText.eq_def]
  split <;> simp_all

theorem readText_escaped_append (character : Char) (rest : Text) :
    readText (escaped character ++ rest) =
      (readText rest).map (Prod.map (character :: ·) id) := by
  unfold escaped
  split
  any_goals simp [readText, unescaped]
  split
  · rename_i control
    have high := hexValue_digitChar (character.toNat / 16) (by omega)
    have low := hexValue_digitChar (character.toNat % 16) (by omega)
    have whole : 16 * (character.toNat / 16) + character.toNat % 16 = character.toNat := by omega
    simp [hexPair, readText, high, low, whole]
  · exact readText_of_plain ‹_› ‹_›

theorem readText_escaped (content rest : Text) :
    readText (content.flatMap escaped ++ '"' :: rest) = some (content, rest) := by
  induction content with
  | nil => simp [readText]
  | cons character content induction =>
      rw [List.flatMap_cons, List.append_assoc, readText_escaped_append, induction]
      rfl

theorem quote_append (content rest : Text) :
    quote content ++ rest = '"' :: (content.flatMap escaped ++ '"' :: rest) := by
  simp [quote]

/-! ## Numbers -/

def IsNumber (digits : Text) : Prop := digits ≠ [] ∧ ∀ part ∈ digits, isNumberPart part

def EndsNumber (rest : Text) : Prop := ∀ next ∈ rest.head?, isNumberPart next = false

theorem isBlank_of_isNumberPart {character : Char} (part : isNumberPart character = true) :
    isBlank character = false := by
  cases blank : isBlank character with
  | false => rfl
  | true =>
      simp only [isBlank, List.contains_eq_mem, List.mem_cons, List.not_mem_nil, or_false,
        decide_eq_true_eq] at blank
      rcases blank with rfl | rfl | rfl | rfl <;> exact absurd part (by decide)

theorem ne_of_isNumberPart {character other : Char} (part : isNumberPart character = true)
    (notPart : isNumberPart other = false) : character ≠ other := by
  rintro rfl
  rw [part] at notPart
  cases notPart

theorem IsNumber.exists_eq_cons {digits : Text} (number : IsNumber digits) :
    ∃ first rest, digits = first :: rest ∧ isNumberPart first = true := by
  cases digits with
  | nil => exact absurd rfl number.1
  | cons first rest => exact ⟨first, rest, rfl, number.2 first List.mem_cons_self⟩

theorem readNumber_append {digits rest : Text} (number : IsNumber digits)
    (ends : EndsNumber rest) : readNumber (digits ++ rest) = some (digits, rest) := by
  have taken : rest.takeWhile isNumberPart = [] ∧ rest.dropWhile isNumberPart = rest := by
    cases rest with
    | nil => exact ⟨rfl, rfl⟩
    | cons next rest => simp [ends next rfl]
  rw [readNumber, List.takeWhile_append_of_pos number.2, List.dropWhile_append_of_pos number.2,
    taken.1, taken.2, List.append_nil, if_neg number.1]

/-! ## Proper documents -/

/-- The numbers of the document can be told from what stands behind them. -/
inductive IsProper : Json → Prop
  | null : IsProper .null
  | text (content : Text) : IsProper (.text content)
  | number {digits : Text} (number : IsNumber digits) : IsProper (.number digits)
  | list {elements : List Json} (each : ∀ element ∈ elements, IsProper element) :
      IsProper (.list elements)
  | object {fields : List (Text × Json)} (each : ∀ field ∈ fields, IsProper field.2) :
      IsProper (.object fields)

@[simp] theorem isProper_text (content : Text) : IsProper (.text content) := .text content

@[simp] theorem isProper_number_iff {digits : Text} :
    IsProper (.number digits) ↔ IsNumber digits :=
  ⟨fun (.number parts) => parts, .number⟩

@[simp] theorem isProper_list_iff {elements : List Json} :
    IsProper (.list elements) ↔ ∀ element ∈ elements, IsProper element :=
  ⟨fun (.list each) => each, .list⟩

@[simp] theorem isProper_object_iff {fields : List (Text × Json)} :
    IsProper (.object fields) ↔ ∀ field ∈ fields, IsProper field.2 :=
  ⟨fun (.object each) => each, .object⟩

theorem IsProper.exists_renderAt_eq_cons {document : Json} (proper : document.IsProper)
    (level : Nat) :
    ∃ first rest, renderAt level document = first :: rest ∧ isBlank first = false ∧
      first ≠ ']' := by
  cases proper with
  | null => exact ⟨'n', _, rfl, by decide⟩
  | text content => exact ⟨'"', _, rfl, by decide⟩
  | number number =>
      rcases number.exists_eq_cons with ⟨first, rest, rfl, part⟩
      exact ⟨first, rest, by rw [renderAt], isBlank_of_isNumberPart part,
        ne_of_isNumberPart part (by decide)⟩
  | @list elements each =>
      cases elements with
      | nil => exact ⟨'[', _, by rw [renderAt], by decide⟩
      | cons first rest => exact ⟨'[', _, by rw [renderAt]; rfl, by decide⟩
  | @object fields each =>
      cases fields with
      | nil => exact ⟨'\x7b', _, by rw [renderAt], by decide⟩
      | cons first rest => exact ⟨'\x7b', _, by rw [renderAt]; rfl, by decide⟩

theorem IsProper.skip_renderAt_append {document : Json} (proper : document.IsProper)
    (level : Nat) (rest : Text) :
    skip (renderAt level document ++ rest) = renderAt level document ++ rest := by
  rcases proper.exists_renderAt_eq_cons level with ⟨first, others, shown, notBlank, -⟩
  rw [shown]
  exact skip_cons_of_not_blank notBlank

/-! ## Items -/

/-- Pieces as the items of a list or an object at a level, each on a line of its own. -/
def items (level : Nat) : (pieces : List Text) → Text
  | [] => []
  | [last] => newLine (level + 1) ++ last
  | first :: next :: rest =>
      newLine (level + 1) ++ first ++ [','] ++ items level (next :: rest)

def closedItems (level : Nat) (closing : Char) : (pieces : List Text) → Text
  | [] => [closing]
  | first :: rest => items level (first :: rest) ++ newLine level ++ [closing]

def renderField (level : Nat) (field : Text × Json) : Text :=
  quote field.1 ++ ": ".toList ++ renderAt level field.2

theorem renderElements_eq (level : Nat) (elements : List Json) :
    renderElements level elements = items level (elements.map (renderAt (level + 1))) := by
  induction elements with
  | nil => rw [renderElements, List.map_nil, items]
  | cons first others induction =>
      cases others with
      | nil => simp [renderElements, items]
      | cons next others =>
          rw [renderElements, induction]
          rfl

theorem renderFields_eq (level : Nat) (fields : List (Text × Json)) :
    renderFields level fields = items level (fields.map (renderField (level + 1))) := by
  induction fields with
  | nil => rw [renderFields, List.map_nil, items]
  | cons first others induction =>
      rcases first with ⟨name, value⟩
      cases others with
      | nil => simp [renderFields, items, renderField]
      | cons next others =>
          rw [renderFields, induction]
          simp [items, renderField]

theorem renderAt_list (level : Nat) (elements : List Json) :
    renderAt level (.list elements) =
      '[' :: closedItems level ']' (elements.map (renderAt (level + 1))) := by
  cases elements with
  | nil => rw [renderAt, List.map_nil, closedItems]
  | cons first others =>
      rw [renderAt, renderElements_eq]
      rfl

theorem renderAt_object (level : Nat) (fields : List (Text × Json)) :
    renderAt level (.object fields) =
      '\x7b' :: closedItems level '\x7d' (fields.map (renderField (level + 1))) := by
  cases fields with
  | nil => rw [renderAt, List.map_nil, closedItems]
  | cons first others =>
      rw [renderAt, renderFields_eq]
      rfl

theorem length_le_length_items (level : Nat) (pieces : List Text) :
    pieces.length ≤ (items level pieces).length ∧
      ∀ piece ∈ pieces, piece.length ≤ (items level pieces).length := by
  induction pieces with
  | nil => simp
  | cons first others induction =>
      rcases induction with ⟨count, each⟩
      cases others with
      | nil =>
          simp only [items, newLine, List.forall_mem_singleton, List.length_append,
            List.length_cons, List.length_nil]
          omega
      | cons next others =>
          simp only [items, newLine, List.length_append, List.length_cons] at count ⊢
          rw [List.forall_mem_cons]
          refine ⟨by omega, by omega, ?_⟩
          intro piece member
          have shorter := each piece member
          omega

theorem length_le_length_closedItems (level : Nat) (closing : Char) (pieces : List Text) :
    pieces.length ≤ (closedItems level closing pieces).length ∧
      ∀ piece ∈ pieces, piece.length ≤ (closedItems level closing pieces).length := by
  cases pieces with
  | nil => simp
  | cons first others =>
      rcases length_le_length_items level (first :: others) with ⟨count, each⟩
      simp only [closedItems, List.length_append]
      refine ⟨by omega, ?_⟩
      intro piece member
      have shorter := each piece member
      omega

/-! ## There and back -/

section

variable {Item : Type} {closing : Char} {readItem : Text → Option (Item × Text)}
  {write : Item → Text} {level fuel : Nat}

theorem endsNumber_newLine_append (level : Nat) (rest : Text) :
    EndsNumber (newLine level ++ rest) := by
  intro next shown
  cases shown
  rfl

theorem endsNumber_comma (rest : Text) : EndsNumber (',' :: rest) := by
  intro next shown
  cases shown
  rfl

theorem readSequence_items {contents : List Item} (rest : Text) (notEmpty : contents ≠ [])
    (notBlank : isBlank closing = false) (notComma : closing ≠ ',')
    (each : ∀ item ∈ contents, ∀ rest, EndsNumber rest →
      readItem (newLine (level + 1) ++ (write item ++ rest)) = some (item, rest))
    (enough : contents.length ≤ fuel) :
    readSequence closing readItem fuel
        (items level (contents.map write) ++ (newLine level ++ closing :: rest)) =
      some (contents, rest) := by
  induction contents generalizing fuel with
  | nil => exact absurd rfl notEmpty
  | cons first others induction =>
      rcases List.forall_mem_cons.mp each with ⟨readFirst, readOthers⟩
      rcases Nat.exists_eq_succ_of_ne_zero (Nat.ne_zero_of_lt enough) with ⟨fuel, rfl⟩
      cases others with
      | nil =>
          have read := readFirst (newLine level ++ closing :: rest)
            (endsNumber_newLine_append level _)
          simp [items, readSequence, read, notBlank, notComma]
      | cons next others =>
          have read := readFirst (',' :: (items level ((next :: others).map write) ++
            (newLine level ++ closing :: rest))) (endsNumber_comma _)
          have later := induction (List.cons_ne_nil next others) readOthers
            (Nat.le_of_succ_le_succ enough)
          simp only [List.map_cons] at read later
          simp [items, readSequence, isBlank, read, later]

theorem readItems_closedItems {contents : List Item} (rest : Text)
    (notBlank : isBlank closing = false) (notComma : closing ≠ ',')
    (starts : ∀ item ∈ contents, ∃ first rest,
      write item = first :: rest ∧ isBlank first = false ∧ first ≠ closing)
    (each : ∀ item ∈ contents, ∀ rest, EndsNumber rest →
      readItem (newLine (level + 1) ++ (write item ++ rest)) = some (item, rest))
    (enough : contents.length ≤ fuel) :
    readItems closing readItem fuel (closedItems level closing (contents.map write) ++ rest) =
      some (contents, rest) := by
  cases contents with
  | nil => simp [readItems, closedItems, notBlank]
  | cons first others =>
      have read := readSequence_items rest (List.cons_ne_nil first others) notBlank notComma each
        enough
      rcases starts first List.mem_cons_self with ⟨head, tail, shown, headNotBlank, notClosing⟩
      have notClosed : expect closing (items level (write first :: others.map write) ++
          (newLine level ++ closing :: rest)) = none := by
        cases others with
        | nil => simp [items, shown, headNotBlank, notClosing]
        | cons next others => simp [items, shown, headNotBlank, notClosing]
      simp only [List.map_cons] at read
      simp [readItems, closedItems, notClosed, read]

end

/-- The document is read from the front of every text that starts with it. -/
def ReadsBack (document : Json) : Prop :=
  ∀ (level fuel : Nat) (input rest : Text), (renderAt level document).length ≤ fuel →
    EndsNumber rest → skip input = renderAt level document ++ rest →
    readValue fuel input = some (document, rest)

theorem readsBack_null : ReadsBack .null := by
  intro level fuel input rest enough _ shown
  cases fuel with
  | zero => cases enough
  | succ fuel =>
      rw [readValue, shown]
      rfl

theorem readsBack_text (content : Text) : ReadsBack (.text content) := by
  intro level fuel input rest enough _ shown
  cases fuel with
  | zero => cases enough
  | succ fuel =>
      rw [readValue, shown, renderAt, quote_append]
      simp [readText_escaped]

theorem readsBack_number {digits : Text} (number : IsNumber digits) :
    ReadsBack (.number digits) := by
  intro level fuel input rest enough ends shown
  have read := readNumber_append number ends
  rcases number.exists_eq_cons with ⟨first, others, rfl, part⟩
  cases fuel with
  | zero => cases enough
  | succ fuel =>
      rw [readValue, shown, renderAt]
      -- No other document starts with a part of a number.
      split
      any_goals
        rename_i same
        exact absurd (List.cons.inj same).1 (ne_of_isNumberPart part (by decide))
      rw [read]
      rfl

theorem readsBack_list {elements : List Json} (proper : ∀ element ∈ elements, element.IsProper)
    (each : ∀ element ∈ elements, element.ReadsBack) : ReadsBack (.list elements) := by
  intro level fuel input rest enough _ shown
  rw [renderAt_list] at enough shown
  cases fuel with
  | zero => cases enough
  | succ fuel =>
      rcases length_le_length_closedItems level ']' (elements.map (renderAt (level + 1))) with
        ⟨count, shorter⟩
      have short := Nat.le_of_succ_le_succ enough
      have read : readItems ']' (readValue fuel) fuel
          (closedItems level ']' (elements.map (renderAt (level + 1))) ++ rest) =
            some (elements, rest) := by
        apply readItems_closedItems rest (by decide) (by decide)
        · intro element member
          exact (proper element member).exists_renderAt_eq_cons (level + 1)
        · intro element member after ends
          apply each element member (level + 1) fuel _ after _ ends
          · rw [skip_newLine_append, (proper element member).skip_renderAt_append]
          · exact (shorter _ (List.mem_map_of_mem member)).trans short
        · rw [List.length_map] at count
          exact count.trans short
      rw [readValue, shown, List.cons_append]
      simp only [read]
      rfl

theorem readsBack_object {fields : List (Text × Json)}
    (proper : ∀ field ∈ fields, field.2.IsProper)
    (each : ∀ field ∈ fields, field.2.ReadsBack) : ReadsBack (.object fields) := by
  intro level fuel input rest enough _ shown
  rw [renderAt_object] at enough shown
  cases fuel with
  | zero => cases enough
  | succ fuel =>
      rcases length_le_length_closedItems level '\x7d' (fields.map (renderField (level + 1))) with
        ⟨count, shorter⟩
      have short := Nat.le_of_succ_le_succ enough
      have read : readItems '\x7d' (readField (readValue fuel)) fuel
          (closedItems level '\x7d' (fields.map (renderField (level + 1))) ++ rest) =
            some (fields, rest) := by
        apply readItems_closedItems rest (by decide) (by decide)
        · intro field member
          exact ⟨'"', _, rfl, by decide, by decide⟩
        · intro field member after ends
          rcases field with ⟨name, value⟩
          have valueProper : value.IsProper := proper (name, value) member
          have readsBack : value.ReadsBack := each (name, value) member
          have named : readValue fuel (' ' :: (renderAt (level + 1) value ++ after)) =
              some (value, after) := by
            apply readsBack (level + 1) fuel _ after _ ends
            · rw [skip_space_cons, valueProper.skip_renderAt_append]
            · have longer := shorter _ (List.mem_map_of_mem member)
              simp only [renderField, List.length_append] at longer
              omega
          simp [readField, renderField, quote_append, isBlank, readText_escaped, named]
        · rw [List.length_map] at count
          exact count.trans short
      rw [readValue, shown, List.cons_append]
      simp only [read]
      rfl

theorem IsProper.readsBack {document : Json} (proper : document.IsProper) :
    document.ReadsBack := by
  induction proper with
  | null => exact readsBack_null
  | text content => exact readsBack_text content
  | number number => exact readsBack_number number
  | list proper induction => exact readsBack_list proper induction
  | object proper induction => exact readsBack_object proper induction

theorem read?_render {document : Json} (proper : document.IsProper) :
    read? document.render = some document := by
  have read := proper.readsBack 0 document.render.length document.render [] (Nat.le_refl _)
    nofun (by simpa [render] using proper.skip_renderAt_append 0 [])
  rw [read?, read]
  rfl

theorem render_injective {document other : Json} (proper : document.IsProper)
    (otherProper : other.IsProper) (same : document.render = other.render) :
    document = other := by
  apply Option.some.inj
  rw [← read?_render proper, same, read?_render otherProper]

end Json

end LicenseSurvey

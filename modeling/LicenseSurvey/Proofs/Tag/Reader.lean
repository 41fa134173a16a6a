import LicenseSurvey.Proofs.Tag.Segment

/-! # Tags one after the other

Lines need not be cut into segments before they are read. A reader takes them one by one
and keeps the field whose value may still go on; tags that are complete wait in a queue
until they are asked for. A line is read only when the queue is empty, and the last field
is closed when no line is left. What such a reader hands out are the tags of the segments,
in their order.
-/

namespace LicenseSurvey

structure OpenField (Label : Type) where
  label : Label
  shape : Shape
  /-- The lines or words that its value has so far. -/
  parts : List Text
deriving DecidableEq, Repr

variable {Label : Type}

namespace OpenField

def add (field : OpenField Label) (line : Text) : OpenField Label :=
  let trimmed := Text.trim line
  match field.shape with
  | .formatted => { field with parts := field.parts ++ [trimmed] }
  | .lines => if trimmed = [] then field else { field with parts := field.parts ++ [trimmed] }
  | .words => { field with parts := field.parts ++ Text.words trimmed }
  | .line | .marker => field

def tag? (field : OpenField Label) : Option (Tag Label) :=
  let value :=
    if field.shape = .formatted then
      Segment.nonemptyText? (Segment.unwrapped (Text.join ['\n'] field.parts))
    else Segment.nonemptyList? field.parts
  value.map fun value => ⟨field.label, value⟩

end OpenField

namespace Key

def atOnce? (key : Key Label) (rest : Text) : Option (Tag Label) :=
  match key.shape with
  | .line => (Segment.nonemptyText? (Text.trim rest)).map fun value => ⟨key.label, value⟩
  | .marker => some ⟨key.label, .text []⟩
  | .formatted | .lines | .words => none

def open? (key : Key Label) (rest : Text) : Option (OpenField Label) :=
  let first := Text.trim rest
  match key.shape with
  | .formatted | .lines => some ⟨key.label, key.shape, if first = [] then [] else [first]⟩
  | .words => some ⟨key.label, key.shape, Text.words first⟩
  | .line | .marker => none

end Key

/-! ## The reader -/

structure TagReader (Label : Type) where
  openField : Option (OpenField Label)
  /-- The tags that are complete and have not been asked for. -/
  ready : List (Tag Label)
deriving DecidableEq, Repr

namespace TagReader

variable {keys : List (Key Label)} {reader : TagReader Label} {lines : List Text}

def start : TagReader Label := ⟨none, []⟩

def closed? (reader : TagReader Label) : Option (Tag Label) :=
  reader.openField.bind OpenField.tag?

def readLine (keys : List (Key Label)) (reader : TagReader Label) (line : Text) :
    TagReader Label :=
  match Key.find? keys line with
  | none => { reader with openField := reader.openField.map fun field => field.add line }
  | some found =>
      { openField := found.key.open? found.after
        ready := reader.ready ++ reader.closed?.toList ++
          (found.key.atOnce? found.after).toList }

def next? (keys : List (Key Label)) :
    TagReader Label → List Text → Option (Tag Label × TagReader Label × List Text)
  | ⟨openField, tag :: ready⟩, lines => some (tag, ⟨openField, ready⟩, lines)
  | ⟨openField, []⟩, line :: lines => next? keys (readLine keys ⟨openField, []⟩ line) lines
  | ⟨openField, []⟩, [] => (closed? ⟨openField, []⟩).map fun tag => (tag, start, [])

/-- A reader that is asked for tags until there is none hands out these. -/
inductive HandsOut (keys : List (Key Label)) :
    TagReader Label → List Text → List (Tag Label) → Prop where
  | done {reader : TagReader Label} {lines : List Text} (no : next? keys reader lines = none) :
      HandsOut keys reader lines []
  | more {reader behind : TagReader Label} {lines left : List Text} {tag : Tag Label}
      {tags : List (Tag Label)} (next : next? keys reader lines = some (tag, behind, left))
      (later : HandsOut keys behind left tags) : HandsOut keys reader lines (tag :: tags)

/-! ## What a reader has still to hand out -/

theorem foldl_add (label : Label) (shape : Shape) (parts further : List Text) :
    further.foldl OpenField.add ⟨label, shape, parts⟩ =
      ⟨label, shape, parts ++
        match shape with
        | .formatted => further.map Text.trim
        | .lines => (further.map Text.trim).filter (!·.isEmpty)
        | .words => further.flatMap Text.words
        | .line | .marker => []⟩ := by
  induction further generalizing parts with
  | nil => cases shape <;> simp
  | cons line further induction =>
      rw [List.foldl_cons]
      cases shape with
      | line => simpa [OpenField.add] using induction parts
      | formatted => simpa [OpenField.add] using induction (parts ++ [Text.trim line])
      | lines =>
          by_cases blank : Text.trim line = []
          · simpa [OpenField.add, blank] using induction parts
          · simpa [OpenField.add, blank] using induction (parts ++ [Text.trim line])
      | words => simpa [OpenField.add] using induction (parts ++ Text.words (Text.trim line))
      | marker => simpa [OpenField.add] using induction parts

/-- The tag of a segment is made at once or when the field of its key is closed. -/
theorem tag?_segment (key : Key Label) (rest : Text) (further : List Text) :
    (Segment.tag? ⟨key, rest, further⟩).toList =
      (key.atOnce? rest).toList ++
        ((key.open? rest).bind fun field => (further.foldl OpenField.add field).tag?).toList := by
  cases shape : key.shape with
  | line => simp [Segment.tag?, Segment.value?, Key.atOnce?, Key.open?, shape]
  | marker => simp [Segment.tag?, Segment.value?, Key.atOnce?, Key.open?, shape]
  | formatted =>
      simp [Segment.tag?, Segment.value?, Key.atOnce?, Key.open?, shape, foldl_add,
        OpenField.tag?, Segment.trimmedLines]
  | lines =>
      by_cases blank : Text.trim rest = [] <;>
        simp [Segment.tag?, Segment.value?, Key.atOnce?, Key.open?, shape, foldl_add,
          OpenField.tag?, Segment.trimmedLines, blank]
  | words =>
      simp [Segment.tag?, Segment.value?, Key.atOnce?, Key.open?, shape, foldl_add,
        OpenField.tag?]

def pending (keys : List (Key Label)) (reader : TagReader Label) (lines : List Text) :
    List (Tag Label) :=
  let further := lines.takeWhile fun later => (Key.find? keys later).isNone
  reader.ready ++
    (reader.openField.bind fun field => (further.foldl OpenField.add field).tag?).toList ++
      Tag.ofLines keys lines

@[simp] theorem pending_start (keys : List (Key Label)) (lines : List Text) :
    pending keys start lines = Tag.ofLines keys lines := rfl

theorem pending_nil (keys : List (Key Label)) (reader : TagReader Label) :
    pending keys reader [] = reader.ready ++ reader.closed?.toList := by
  simp [pending, closed?, Tag.ofLines, Segment.ofLines]

theorem pending_cons (keys : List (Key Label)) (reader : TagReader Label) (line : Text)
    (lines : List Text) :
    pending keys reader (line :: lines) = pending keys (reader.readLine keys line) lines := by
  cases read : Key.find? keys line with
  | none =>
      simp only [pending, readLine, read, Tag.ofLines_cons_of_none read,
        List.takeWhile_cons, Option.isNone_none, if_true, List.foldl_cons, Option.bind_map]
      rfl
  | some found =>
      simp only [pending, readLine, read, Tag.ofLines_cons_of_some read, List.takeWhile_cons,
        Option.isNone_some, Bool.false_eq_true, if_false, List.foldl_nil, tag?_segment,
        closed?, List.append_assoc]

/-- One call hands out the first of the tags that are to come. -/
theorem pending_eq (keys : List (Key Label)) (reader : TagReader Label) (lines : List Text) :
    pending keys reader lines =
      match next? keys reader lines with
      | none => []
      | some (tag, behind, left) => tag :: pending keys behind left := by
  induction lines generalizing reader with
  | nil =>
      rcases reader with ⟨openField, _ | ⟨tag, ready⟩⟩
      · rw [pending_nil, next?]
        cases closed? ⟨openField, []⟩ <;> rfl
      · rfl
  | cons line lines induction =>
      rcases reader with ⟨openField, _ | ⟨tag, ready⟩⟩
      · rw [pending_cons, next?]
        exact induction _
      · rfl

theorem handsOut_iff {tags : List (Tag Label)} :
    HandsOut keys reader lines tags ↔ tags = pending keys reader lines := by
  constructor
  · intro handsOut
    induction handsOut with
    | done no => rw [pending_eq, no]
    | more next later induction => rw [pending_eq, next, induction]
  · intro equal
    induction tags generalizing reader lines with
    | nil =>
        rw [pending_eq] at equal
        split at equal
        · rename_i no
          exact .done no
        · exact absurd equal (List.cons_ne_nil _ _).symm
    | cons tag tags induction =>
        rw [pending_eq] at equal
        split at equal
        · exact absurd equal (List.cons_ne_nil _ _)
        · rename_i first behind left next
          obtain ⟨rfl, rest⟩ := List.cons.inj equal
          exact .more next (induction rest)

/-- From the first line on a reader hands out the tags of the lines, each of them once, and
then no other. -/
theorem handsOut_start_iff {tags : List (Tag Label)} :
    HandsOut keys start lines tags ↔ tags = Tag.ofLines keys lines := by
  rw [handsOut_iff, pending_start]

end TagReader

end LicenseSurvey

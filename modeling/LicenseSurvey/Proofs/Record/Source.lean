import LicenseSurvey.Record.Reading

/-! # What a source says as a whole

A source is read tag by tag, with a flag for an open ignore block and a flag for a
license seen. Here the result is described without either flag: the ignored tags are
cut out first, and then every field of the record depends on the tags that name it
and on nothing else.
-/

namespace LicenseSurvey

namespace LicensingTag

/-! ## Visible tags -/

theorem isLimit_eq_false_iff {tag : LicensingTag} :
    tag.isLimit = false ↔ tag.label ≠ .ignoreStart ∧ tag.label ≠ .ignoreEnd := by
  simp [isLimit]

/-- The tags outside ignore blocks. A block reaches from an ignore start to the next
ignore end, or to the end of the source when there is none. -/
def visible : List LicensingTag → List LicensingTag
  | [] => []
  | tag :: tags =>
      match tag.label with
      | .ignoreStart => visible (tags.dropWhile fun later => later.label != .ignoreEnd)
      | .ignoreEnd => visible tags
      | _ => tag :: visible tags
termination_by tags => tags.length
decreasing_by
  · exact Nat.lt_succ_of_le (List.dropWhile_sublist _).length_le
  · simp
  · simp

theorem visible_eq_self {tags : List LicensingTag}
    (plain : ∀ tag ∈ tags, tag.isLimit = false) : visible tags = tags := by
  induction tags with
  | nil => rw [visible]
  | cons tag tags induction =>
      obtain ⟨notStart, notEnd⟩ := isLimit_eq_false_iff.mp (plain tag (List.mem_cons_self ..))
      rw [visible]
      split
      case h_1 starts => exact absurd starts notStart
      case h_2 ends => exact absurd ends notEnd
      case h_3 =>
        rw [induction fun later member => plain later (List.mem_cons_of_mem _ member)]

/-! ## Values -/

def texts (isWanted : LicensingLabel → Bool) (tags : List LicensingTag) : List Text :=
  (tags.filter fun tag => isWanted tag.label).map fun tag => tag.value.asText

def elements (label : LicensingLabel) (tags : List LicensingTag) : List Text :=
  (tags.filter fun tag => tag.label == label).flatMap fun tag => tag.value.asList

def lastText? (label : LicensingLabel) (tags : List LicensingTag) : Option Text :=
  (texts (· == label) tags).getLast?

def statesLicense (label : LicensingLabel) : Bool :=
  label == .license || label == .licenseInFile

@[simp] theorem texts_nil (isWanted : LicensingLabel → Bool) : texts isWanted [] = [] :=
  rfl

theorem texts_cons (isWanted : LicensingLabel → Bool) (tag : LicensingTag)
    (tags : List LicensingTag) :
    texts isWanted (tag :: tags) =
      if isWanted tag.label then tag.value.asText :: texts isWanted tags
      else texts isWanted tags := by
  by_cases wanted : isWanted tag.label <;> simp [texts, wanted]

@[simp] theorem elements_nil (label : LicensingLabel) : elements label [] = [] := rfl

theorem elements_cons (label : LicensingLabel) (tag : LicensingTag)
    (tags : List LicensingTag) :
    elements label (tag :: tags) =
      (if tag.label == label then tag.value.asList else []) ++ elements label tags := by
  by_cases named : tag.label == label <;> simp [elements, named]

@[simp] theorem lastText?_nil (label : LicensingLabel) : lastText? label [] = none := rfl

theorem lastText?_cons (label : LicensingLabel) (tag : LicensingTag)
    (tags : List LicensingTag) :
    lastText? label (tag :: tags) =
      (lastText? label tags).or
        (if tag.label == label then some tag.value.asText else none) := by
  by_cases named : tag.label == label
  · simp [lastText?, texts_cons, named, List.getLast?_cons, Option.or_some]
  · simp [lastText?, texts_cons, named]

end LicensingTag

open LicensingTag (visible texts elements lastText? statesLicense texts_cons elements_cons
  lastText?_cons)

def FileRecord.withTags (record : FileRecord) (tags : List LicensingTag) : FileRecord :=
  let licenses := texts statesLicense tags
  { record with
    licensesInFile := if licenses = [] then record.licensesInFile else licenses
    copyright := (lastText? .copyright tags).or record.copyright
    licenseConcluded := (lastText? .licenseConcluded tags).getD record.licenseConcluded
    comment := (lastText? .comment tags).or record.comment
    notice := (lastText? .notice tags).or record.notice
    contributors := record.contributors ++ elements .contributor tags
    attributions := record.attributions ++ texts (· == .attribution) tags
    fileTypes := record.fileTypes ++ elements .fileType tags }

namespace Reading

/-! ## Writing without skipping -/

def completed (reading : Reading) (tags : List LicensingTag) : FileRecord :=
  let record := reading.record.turned
  let licenses := texts statesLicense tags
  { record.withTags tags with
    licensesInFile :=
      if licenses = [] then record.licensesInFile
      else (if reading.licensed then record.licensesInFile else []) ++ licenses }

theorem completed_start (record : FileRecord) (tags : List LicensingTag) :
    (start record).completed tags = record.withTags tags := by
  simp [completed, start, FileRecord.withTags]

theorem completed_write (reading : Reading) (tag : LicensingTag)
    (tags : List LicensingTag) (plain : tag.isLimit = false) :
    (reading.write tag).completed tags = reading.completed (tag :: tags) := by
  rcases tag with ⟨label, value⟩
  rcases reading with ⟨record, ignoring, licensed⟩
  by_cases silent : texts statesLicense tags = [] <;> cases licensed <;> cases label <;>
    simp [LicensingTag.isLimit] at plain <;>
    simp [completed, write, FileRecord.withTags, FileRecord.turned, texts_cons, elements_cons,
      lastText?_cons, statesLicense, silent]

theorem turned_foldl_write (reading : Reading) (tags : List LicensingTag)
    (plain : ∀ tag ∈ tags, tag.isLimit = false) :
    (tags.foldl write reading).record.turned = reading.completed tags := by
  induction tags generalizing reading with
  | nil =>
      simp [completed, FileRecord.withTags]
  | cons tag tags induction =>
      rw [List.foldl_cons,
        induction _ fun later member => plain later (List.mem_cons_of_mem _ member)]
      exact completed_write reading tag tags (plain tag (List.mem_cons_self ..))

/-! ## Skipping -/

theorem read_of_ignoring (reading : Reading) (tag : LicensingTag)
    (inside : tag.label ≠ .ignoreEnd) :
    read { reading with ignoring := true } tag = { reading with ignoring := true } := by
  rcases tag with ⟨label, value⟩
  cases label <;> simp [read] at inside ⊢

theorem read_of_not_isLimit (reading : Reading) (tag : LicensingTag)
    (plain : tag.isLimit = false) (open_ : reading.ignoring = false) :
    reading.read tag = reading.write tag := by
  rcases tag with ⟨label, value⟩
  cases label <;> simp [LicensingTag.isLimit] at plain <;> simp [read, open_]

theorem ignoring_write (reading : Reading) (tag : LicensingTag) :
    (reading.write tag).ignoring = reading.ignoring := by
  rcases tag with ⟨label, value⟩
  cases label <;> rfl

/-- Inside an ignore block everything up to its end might as well be absent. -/
theorem record_foldl_read_of_ignoring (reading : Reading) (tags : List LicensingTag) :
    (tags.foldl read { reading with ignoring := true }).record =
      ((tags.dropWhile fun tag => tag.label != .ignoreEnd).foldl read
        { reading with ignoring := false }).record := by
  induction tags with
  | nil => rfl
  | cons tag tags induction =>
      by_cases ends : tag.label = .ignoreEnd
      · simp [ends, read]
      · rw [List.foldl_cons, read_of_ignoring reading tag ends,
          List.dropWhile_cons_of_pos (by simpa using ends)]
        exact induction

theorem record_foldl_read (reading : Reading) (tags : List LicensingTag)
    (open_ : reading.ignoring = false) :
    (tags.foldl read reading).record = ((visible tags).foldl write reading).record := by
  -- An open block is left at the place where `visible` goes on, with the same record.
  fun_induction visible tags generalizing reading with
  | case1 => rfl
  | case2 tag tags starts induction =>
      have entered : reading.read tag = { reading with ignoring := true } := by
        simp [read, starts]
      have resumed : { reading with ignoring := false } = reading := by
        rw [← open_]
      rw [List.foldl_cons, entered, record_foldl_read_of_ignoring, resumed]
      exact induction reading open_
  | case3 tag tags ends induction =>
      have unchanged : reading.read tag = reading := by
        simp [read, ends, ← open_]
      rw [List.foldl_cons, unchanged]
      exact induction reading open_
  | case4 tag tags notStart notEnd induction =>
      have plain : tag.isLimit = false :=
        LicensingTag.isLimit_eq_false_iff.mpr ⟨notStart, notEnd⟩
      rw [List.foldl_cons, List.foldl_cons, read_of_not_isLimit reading tag plain open_]
      exact induction _ ((ignoring_write reading tag).trans open_)

end Reading

theorem LicensingTag.not_isLimit_of_mem_visible {tag : LicensingTag}
    {tags : List LicensingTag} (member : tag ∈ visible tags) : tag.isLimit = false := by
  fun_induction visible tags with
  | case1 => simp at member
  | case2 _ _ _ induction => exact induction member
  | case3 _ _ _ induction => exact induction member
  | case4 head tags notStart notEnd induction =>
      rcases List.mem_cons.mp member with equal | member
      · rw [equal]
        exact isLimit_eq_false_iff.mpr ⟨notStart, notEnd⟩
      · exact induction member

/-- Reading a source tag by tag comes to the same as taking its visible tags as a
whole. -/
theorem FileRecord.withSource_eq_withTags (record : FileRecord) (tags : List LicensingTag) :
    record.withSource tags = record.withTags (visible tags) := by
  have plain : ∀ tag ∈ visible tags, tag.isLimit = false := fun _ member =>
    LicensingTag.not_isLimit_of_mem_visible member
  calc record.withSource tags
      = ((visible tags).foldl Reading.write (.start record)).record.turned := by
        rw [withSource, Reading.record_foldl_read _ _ rfl]
    _ = (Reading.start record).completed (visible tags) :=
        Reading.turned_foldl_write _ _ plain
    _ = record.withTags (visible tags) := Reading.completed_start record _

end LicenseSurvey

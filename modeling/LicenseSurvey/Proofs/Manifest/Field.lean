import LicenseSurvey.Proofs.Manifest.Document

/-! # Fields read back

Each field of a paragraph begins with its key and holds no other, so it is read as one
tag. With no field written twice the value of each is found again: a row as it stands, rows
as a list, words, or a text whose dots are empty rows.
-/

namespace LicenseSurvey

open Text (join isBlank dottedRows)

/-! ## Keys -/

namespace ManifestField

@[simp] theorem label_key (field : ManifestField) : field.key.label = field := by
  cases field <;> rfl

theorem find?_key (field : ManifestField) (rest : Text) :
    Key.find? manifestKeys (field.key.name ++ ':' :: rest) = some ⟨field.key, [], rest⟩ := by
  cases field <;> rfl

theorem not_marker_of_mem_manifestKeys : ∀ key ∈ manifestKeys, key.shape ≠ .marker := by
  decide

theorem exists_name (field : ManifestField) :
    ∃ letter name, field.key.name = letter :: name ∧ isBlank letter = false := by
  cases field <;> exact ⟨_, _, rfl, by decide⟩

theorem noFeed_name (field : ManifestField) : '\n' ∉ field.key.name := by
  cases field <;> decide

/-! ## Paragraphs -/

structure Writable (rows : ManifestField → List Text) : Prop where
  isRow : ∀ field, ∀ row ∈ rows field, row.IsRow
  absent : ∀ field, ∀ row ∈ (rows field).tail, Key.IsAbsent manifestKeys row
  someField : ∃ field, rows field ≠ []

variable {rows : ManifestField → List Text} {order : List ManifestField}

theorem mem_lines {field : ManifestField} {line : Text}
    (member : line ∈ field.key.lines (rows field)) :
    ∃ front, ∃ row ∈ rows field, line = front ++ row ∧ front ≠ [] ∧ '\n' ∉ front := by
  cases read : rows field with
  | nil => simp [read, Key.lines] at member
  | cons first further =>
      rw [read, Key.lines, List.mem_cons, List.mem_map] at member
      rcases member with rfl | ⟨row, among, rfl⟩
      · refine ⟨field.key.name ++ [':', ' '], first, List.mem_cons_self .., ?_, ?_, ?_⟩
        · simp
        · simp
        · simp [noFeed_name field]
      · exact ⟨[' '], row, List.mem_cons_of_mem _ among, rfl, by decide, by decide⟩

theorem isParagraph_paragraph (writable : Writable rows) (each : ∀ field, field ∈ order) :
    Text.IsParagraph (paragraph order rows) := by
  have inField : ∀ line ∈ paragraph order rows,
      ∃ front row, row.IsRow ∧ line = front ++ row ∧ front ≠ [] ∧ '\n' ∉ front := by
    intro line member
    obtain ⟨field, -, inside⟩ := List.mem_flatMap.mp member
    obtain ⟨front, row, among, split⟩ := mem_lines inside
    exact ⟨front, row, writable.isRow field row among, split⟩
  constructor
  · intro blank
    obtain ⟨field, notEmpty⟩ := writable.someField
    obtain ⟨first, further, read⟩ := List.exists_cons_of_ne_nil notEmpty
    obtain ⟨letter, name, named, plain⟩ := exists_name field
    have written : field.key.name ++ ':' :: ' ' :: first ∈ paragraph order rows := by
      apply List.mem_flatMap.mpr ⟨field, each field, ?_⟩
      rw [read]
      exact List.mem_cons_self ..
    have silent := blank _ written letter (by simp [named])
    exact Bool.noConfusion (plain.symm.trans silent)
  · intro line member
    obtain ⟨front, row, -, rfl, notEmpty, -⟩ := inField line member
    exact List.append_ne_nil_of_left_ne_nil notEmpty row
  · intro line member
    obtain ⟨front, row, plain, rfl, -, noFeed⟩ := inField line member
    rw [List.mem_append, not_or]
    exact ⟨noFeed, plain.noFeed⟩
  · intro line member
    obtain ⟨front, row, plain, rfl, -, -⟩ := inField line member
    rw [List.getLast?_append_of_ne_nil front plain.notEmpty]
    exact plain.getLast?_ne

theorem paragraph_cons (field : ManifestField) (order : List ManifestField) :
    paragraph (field :: order) rows = field.key.lines (rows field) ++ paragraph order rows :=
  rfl

theorem find?_head?_paragraph (order : List ManifestField) :
    ∀ line ∈ (paragraph order rows).head?, Key.find? manifestKeys line ≠ none := by
  induction order with
  | nil => simp [paragraph]
  | cons field order induction =>
      rw [paragraph_cons]
      cases read : rows field with
      | nil => exact induction
      | cons first further =>
          intro line front
          rw [Key.lines, List.cons_append, List.head?_cons, Option.mem_def,
            Option.some.injEq] at front
          rw [← front, find?_key]
          exact Option.some_ne_none _

end ManifestField

/-! ## Tags of a paragraph -/

namespace ManifestTag

variable {rows : ManifestField → List Text} {order : List ManifestField} {field : ManifestField}

def ofRows (order : List ManifestField) (rows : ManifestField → List Text) : List ManifestTag :=
  order.flatMap fun field => (Tag.ofRows? field.key (rows field)).toList

theorem ofRun_paragraph (writable : ManifestField.Writable rows) (order : List ManifestField) :
    ofRun (ManifestField.paragraph order rows) = ofRows order rows := by
  have single (field : ManifestField) := @Tag.ofLines_lines _ manifestKeys field.key
    not_isBlank_of_mem_manifestKeys ManifestField.not_marker_of_mem_manifestKeys
    field.find?_key (rows field) (writable.absent field)
  induction order with
  | nil => rfl
  | cons field order induction =>
      rw [ofRun] at induction ⊢
      rw [ManifestField.paragraph_cons,
        Tag.ofLines_append (ManifestField.find?_head?_paragraph order), single, induction]
      rfl

theorem label_of_mem_ofRows? {tag : ManifestTag} {texts : List Text}
    (member : tag ∈ (Tag.ofRows? field.key texts).toList) : tag.label = field := by
  rw [Option.mem_toList] at member
  cases texts with
  | nil => exact absurd member (by simp [Tag.ofRows?])
  | cons first further =>
      rw [Tag.ofRows?, Segment.tag?, Option.map_eq_some_iff] at member
      obtain ⟨value, -, rfl⟩ := member
      exact field.label_key

theorem filter_ofRows_of_notMem (notMem : field ∉ order) :
    ((ofRows order rows).filter fun tag => tag.label = field) = [] := by
  rw [List.filter_eq_nil_iff]
  intro tag member
  obtain ⟨other, among, inside⟩ := List.mem_flatMap.mp member
  rw [label_of_mem_ofRows? inside, decide_eq_true_eq]
  rintro rfl
  exact notMem among

theorem filter_ofRows (once : order.Nodup) (member : field ∈ order) :
    ((ofRows order rows).filter fun tag => tag.label = field) =
      (Tag.ofRows? field.key (rows field)).toList := by
  obtain ⟨before, after, rfl⟩ := List.append_of_mem member
  obtain ⟨-, later, apart⟩ := List.nodup_append.mp once
  have notBefore : field ∉ before := by
    intro inside
    exact apart field inside field (List.mem_cons_self ..) rfl
  have here : ((Tag.ofRows? field.key (rows field)).toList.filter fun tag => tag.label = field) =
      (Tag.ofRows? field.key (rows field)).toList := by
    rw [List.filter_eq_self]
    intro tag inside
    rw [decide_eq_true_eq]
    exact label_of_mem_ofRows? inside
  have behind := @filter_ofRows_of_notMem rows after field (List.nodup_cons.mp later).1
  have front := @filter_ofRows_of_notMem rows before field notBefore
  rw [ofRows] at behind front ⊢
  rw [List.flatMap_append, List.flatMap_cons, List.filter_append, List.filter_append, front, here,
    behind, List.nil_append, List.append_nil]

theorem last?_ofRows (once : order.Nodup) (member : field ∈ order) :
    last? field (ofRows order rows) = (Tag.ofRows? field.key (rows field)).map Tag.value := by
  rw [last?, filter_ofRows once member]
  cases Tag.ofRows? field.key (rows field) <;> rfl

end ManifestTag

/-! ## Values -/

theorem Text.isRow_of_mem_dottedRows {text row : Text} (prose : text.IsProse)
    (member : row ∈ dottedRows text) : row.IsRow := by
  obtain ⟨source, among, rfl⟩ := List.mem_map.mp member
  by_cases empty : source = []
  · rw [if_pos empty]
    exact ⟨by decide, by decide, by decide⟩
  · rw [if_neg empty]
    exact ⟨empty, prose.trimmed source among, not_mem_of_mem_rows among⟩

theorem Text.head?_dottedRows {text : Text} (prose : text.IsProse) :
    (dottedRows text).head? = (rows text).head? := by
  obtain ⟨first, later, split⟩ := List.exists_cons_of_ne_nil (rows_ne_nil text)
  have notEmpty := prose.first
  rw [split, List.head?_cons] at notEmpty
  rw [dottedRows, split, List.map_cons, List.head?_cons, List.head?_cons,
    if_neg fun empty => notEmpty (congrArg some empty)]

theorem Text.getLast?_dottedRows {text : Text} (prose : text.IsProse) :
    (dottedRows text).getLast? = (rows text).getLast? := by
  obtain ⟨ahead, last, split⟩ := exists_rows_eq_concat text
  have notEmpty := prose.last
  rw [split, List.getLast?_concat] at notEmpty
  rw [dottedRows, split, List.map_append, List.map_singleton, List.getLast?_concat,
    List.getLast?_concat, if_neg fun empty => notEmpty (congrArg some empty)]

theorem Text.lines_join {written : List Text} (each : ∀ row ∈ written, row.IsRow) :
    lines (join ['\n'] written) = written := by
  rcases List.eq_nil_or_concat written with rfl | ⟨ahead, last, rfl⟩
  · rfl
  · rw [List.concat_eq_append] at each ⊢
    obtain ⟨front, final⟩ := List.forall_mem_append.mp each
    have split : rows (join ['\n'] (ahead ++ [last])) = ahead ++ [last] :=
      rows_join (fun row member => (each row member).noFeed) (by simp)
    have kept : ahead.map (withoutLast '\r') = ahead := by
      rw [List.map_congr_left fun row member =>
        withoutLast_of_getLast?_ne (front row member).getLast?_ne, List.map_id']
    rw [lines, ← rows, split, List.dropLast_concat, kept, List.getLast?_concat]
    simp [(final last (List.mem_singleton_self last)).notEmpty]

theorem Text.plainText_join_dottedRows {text : Text} (prose : text.IsProse) :
    Manifest.plainText (join ['\n'] (dottedRows text)) = text := by
  have restored : (dottedRows text).map
      (fun row => if Text.trim row = ['.'] then [] else row) = rows text := by
    have single : ∀ row ∈ rows text,
        ((fun row => if trim row = ['.'] then [] else row) ∘
          fun row => if row = [] then ['.'] else row) row = row := by
      intro row member
      by_cases empty : row = []
      · subst empty
        decide
      · have other : row ≠ ['.'] := by
          rintro rfl
          exact prose.noDot member
        simp [empty, prose.trimmed row member, other]
    rw [dottedRows, List.map_map, List.map_congr_left single, List.map_id']
  rw [Manifest.plainText, lines_join fun row => isRow_of_mem_dottedRows prose, restored,
    trim_join prose.trimmed prose.first prose.last, join_rows]

theorem Text.isUnwrapped_join_dottedRows {text : Text} (prose : text.IsProse) :
    (join ['\n'] (dottedRows text)).IsUnwrapped ↔ text.IsUnwrapped := by
  rw [isUnwrapped_join_congr (head?_dottedRows prose) (getLast?_dottedRows prose), join_rows]

theorem Manifest.licenseName_join {name : Text} (isRow : name.IsRow) (further : List Text) :
    licenseName (join ['\n'] (name :: further)) = name := by
  rw [licenseName, Text.takeWhile_join isRow.noFeed, isRow.trimmed]

theorem Manifest.licenseText?_join {name : Text} (isRow : name.IsRow) {licenseText : Option Text}
    (prose : ∀ text ∈ licenseText, text.IsProse) :
    licenseText? (join ['\n'] (name :: licenseText.toList.flatMap dottedRows)) = licenseText := by
  rw [licenseText?, Text.dropWhile_join isRow.noFeed]
  cases licenseText with
  | none => rfl
  | some text =>
      have notEmpty : text ≠ [] := by
        rintro rfl
        exact (prose [] rfl).first rfl
      rw [Option.toList_some, List.flatMap_singleton,
        Text.plainText_join_dottedRows (prose text rfl)]
      exact if_neg notEmpty

/-! ## Fields that are read back -/

theorem Text.isRow_of_mem_flatMap {text? : Option Text} (prose : ∀ text ∈ text?, text.IsProse) :
    ∀ row ∈ text?.toList.flatMap dottedRows, row.IsRow := by
  intro row member
  obtain ⟨text, among, inside⟩ := List.mem_flatMap.mp member
  exact isRow_of_mem_dottedRows (prose text (Option.mem_toList.mp among)) inside

namespace ManifestTag

variable {order : List ManifestField} {rows : ManifestField → List Text}
  {field : ManifestField} {text? : Option Text}

section

variable (once : order.Nodup) (member : field ∈ order)
include once member

theorem lastText?_of_nil (written : rows field = []) :
    lastText? field (ofRows order rows) = none := by
  rw [lastText?, last?_ofRows once member, written]
  rfl

theorem lastText?_of_entry (shape : field.key.shape = .line)
    (isRow : ∀ text ∈ text?, text.IsRow) (written : rows field = text?.toList) :
    lastText? field (ofRows order rows) = text? := by
  cases text? with
  | none => exact lastText?_of_nil once member written
  | some text =>
      rw [lastText?, last?_ofRows once member, written, Option.toList_some,
        Tag.ofRows?_of_line shape (isRow text rfl)]
      rfl

theorem lastText?_of_formatted (shape : field.key.shape = .formatted)
    (isRow : ∀ row ∈ rows field, row.IsRow) (notEmpty : rows field ≠ [])
    (plain : (join ['\n'] (rows field)).IsUnwrapped) :
    lastText? field (ofRows order rows) = some (join ['\n'] (rows field)) := by
  rw [lastText?, last?_ofRows once member, Tag.ofRows?_of_formatted shape isRow notEmpty plain]
  rfl

theorem plainText_lastText?_of_prose (shape : field.key.shape = .formatted)
    (each : ∀ text ∈ text?, text.IsProse ∧ text.IsUnwrapped)
    (written : rows field = text?.toList.flatMap dottedRows) :
    (lastText? field (ofRows order rows)).map Manifest.plainText = text? := by
  cases text? with
  | none => rw [lastText?_of_nil once member written, Option.map_none]
  | some text =>
      obtain ⟨prose, plain⟩ := each text rfl
      rw [Option.toList_some, List.flatMap_singleton] at written
      have notEmpty : rows field ≠ [] := by
        rw [written, Text.dottedRows, ne_eq, List.map_eq_nil_iff]
        exact Text.rows_ne_nil text
      have isRow : ∀ row ∈ rows field, row.IsRow := by
        rw [written]
        exact fun row => Text.isRow_of_mem_dottedRows prose
      rw [← Text.isUnwrapped_join_dottedRows prose, ← written] at plain
      rw [lastText?_of_formatted once member shape isRow notEmpty plain, Option.map_some, written,
        Text.plainText_join_dottedRows prose]

theorem asList_last?_of_lines {elements : List Text} (shape : field.key.shape = .lines)
    (isRow : ∀ element ∈ elements, element.IsRow) (written : rows field = elements) :
    ((last? field (ofRows order rows)).map Value.asList).getD [] = elements := by
  rw [last?_ofRows once member, written]
  by_cases empty : elements = []
  · rw [empty]
    rfl
  · rw [Tag.ofRows?_of_lines shape isRow empty]
    rfl

theorem flatMap_filter_of_words {elements : List Text} (shape : field.key.shape = .words)
    (each : ∀ element ∈ elements, element.IsWord)
    (written : rows field = if elements = [] then [] else [join [' '] elements]) :
    ((ofRows order rows).filter fun tag => tag.label = field).flatMap
      (fun tag => tag.value.asList) = elements := by
  rw [filter_ofRows once member, written]
  by_cases empty : elements = []
  · rw [if_pos empty, empty]
    rfl
  · have words := Text.words_join each
    have someWord : Text.words (join [' '] elements) ≠ [] := by rwa [words]
    rw [if_neg empty, Tag.ofRows?_of_words shape someWord, words, Option.toList_some,
      List.flatMap_singleton]
    rfl

end

theorem license_of_written (once : order.Nodup) (member : .license ∈ order)
    {name? licenseText : Option Text}
    (named : ∀ name ∈ name?,
      name.IsRow ∧ (Stanza.licenseField name licenseText).IsUnwrapped)
    (prose : ∀ text ∈ licenseText, text.IsProse) (beside : name? = none → licenseText = none)
    (written : rows .license = name?.toList ++ licenseText.toList.flatMap dottedRows) :
    (lastText? .license (ofRows order rows)).map Manifest.licenseName = name? ∧
      (lastText? .license (ofRows order rows)).bind Manifest.licenseText? = licenseText := by
  cases name? with
  | none =>
      rw [beside rfl] at written ⊢
      rw [lastText?_of_nil once member written]
      exact ⟨rfl, rfl⟩
  | some name =>
      obtain ⟨isRow, plain⟩ := named name rfl
      rw [Option.toList_some, List.singleton_append] at written
      have each : ∀ row ∈ rows .license, row.IsRow := by
        rw [written]
        exact List.forall_mem_cons.mpr ⟨isRow, Text.isRow_of_mem_flatMap prose⟩
      have whole : (join ['\n'] (rows .license)).IsUnwrapped := by
        rw [written]
        cases licenseText with
        | none => exact plain
        | some text =>
            have field : Stanza.licenseField name (some text) =
                join ['\n'] (name :: Text.rows text) := by
              rw [Text.join_cons (Text.rows_ne_nil text), Text.join_rows]
              rfl
            rw [field] at plain
            have first : (name :: dottedRows text).head? = (name :: Text.rows text).head? := rfl
            have last : (name :: dottedRows text).getLast? = (name :: Text.rows text).getLast? := by
              rw [List.getLast?_cons, List.getLast?_cons,
                Text.getLast?_dottedRows (prose text rfl)]
            rw [Option.toList_some, List.flatMap_singleton]
            exact (Text.isUnwrapped_join_congr first last).mpr plain
      rw [lastText?_of_formatted once member rfl each (written ▸ List.cons_ne_nil _ _) whole,
        written, Option.map_some, Option.bind_some, Manifest.licenseName_join isRow,
        Manifest.licenseText?_join isRow prose]
      exact ⟨rfl, rfl⟩

end ManifestTag

end LicenseSurvey

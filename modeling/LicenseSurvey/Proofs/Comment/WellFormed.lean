import LicenseSurvey.Proofs.Comment.Effect
import LicenseSurvey.Proofs.Comment.Marker
import LicenseSurvey.Proofs.Text.Slice

/-! # Well-formed comments

Every comment that is found in a file is cut out of the lines of the file. A line
comment is the rest of one line. A block comment is a run of lines: it begins with the
opening marker, ends with the closing marker, and leaves nothing out in between. The
parts of a block comment that is still open have the same properties up to its end, and
this is what each token and each line preserve.
-/

namespace LicenseSurvey

/-! ## Parts of comments in source lines -/

namespace CommentLine

def source? (part : CommentLine) (lines : List Text) : Option Text :=
  if part.number = 0 then none else lines[part.number - 1]?

/-- A part is the slice of its source line between two character boundaries. -/
def IsCutFrom (part : CommentLine) (lines : List Text) : Prop :=
  ∃ line, part.source? lines = some line ∧
    part.start ≤ part.stop ∧ part.stop ≤ Text.size line ∧
    Text.IsBoundary line part.start ∧ Text.IsBoundary line part.stop ∧
    part.text = Text.slice part.start part.stop line

def ReachesEnd (part : CommentLine) (lines : List Text) : Prop :=
  ∃ line, part.source? lines = some line ∧ part.stop = Text.size line

theorem source?_eq_some_iff {part : CommentLine} {lines : List Text} {line : Text} :
    part.source? lines = some line ↔ 1 ≤ part.number ∧ lines[part.number - 1]? = some line := by
  by_cases zero : part.number = 0
  · simp [source?, zero]
  · simp [source?, zero, Nat.one_le_iff_ne_zero]

theorem source?_append {part : CommentLine} {lines : List Text} {line : Text}
    (found : part.source? lines = some line) (more : List Text) :
    part.source? (lines ++ more) = some line := by
  obtain ⟨positive, lookup⟩ := source?_eq_some_iff.mp found
  have within := (List.getElem?_eq_some_iff.mp lookup).1
  exact source?_eq_some_iff.mpr ⟨positive, by rwa [List.getElem?_append_left within]⟩

theorem IsCutFrom.append {part : CommentLine} {lines : List Text}
    (cut : part.IsCutFrom lines) (more : List Text) : part.IsCutFrom (lines ++ more) := by
  obtain ⟨line, found, slice⟩ := cut
  exact ⟨line, source?_append found more, slice⟩

theorem ReachesEnd.append {part : CommentLine} {lines : List Text}
    (reaches : part.ReachesEnd lines) (more : List Text) :
    part.ReachesEnd (lines ++ more) := by
  obtain ⟨line, found, equal⟩ := reaches
  exact ⟨line, source?_append found more, equal⟩

theorem IsCutFrom.number_le {part : CommentLine} {lines : List Text}
    (cut : part.IsCutFrom lines) : 1 ≤ part.number ∧ part.number ≤ lines.length := by
  obtain ⟨line, found, -⟩ := cut
  obtain ⟨positive, lookup⟩ := source?_eq_some_iff.mp found
  have within := (List.getElem?_eq_some_iff.mp lookup).1
  omega

theorem isCutFrom_of_pieces {lines : List Text} {number : Nat} {front middle back : Text}
    (found : (⟨number, Text.size front, Text.size front + Text.size middle, middle⟩ :
      CommentLine).source? lines = some (front ++ (middle ++ back))) :
    (⟨number, Text.size front, Text.size front + Text.size middle, middle⟩ :
      CommentLine).IsCutFrom lines := by
  refine ⟨front ++ (middle ++ back), found, by simp, by simp, ?_, ?_, ?_⟩
  · exact Text.isBoundary_size front (middle ++ back)
  · have boundary := Text.isBoundary_size (front ++ middle) back
    rwa [List.append_assoc, Text.size_append] at boundary
  · exact (Text.slice_append front middle back).symm

end CommentLine

namespace Comment

def IsLineComment (comment : Comment) (marker : Text) (lines : List Text) : Prop :=
  ∃ part, comment.content = [part] ∧ Text.startsWith part.text marker ∧ part.ReachesEnd lines

structure IsBlockComment (comment : Comment) (block : BlockMarkers) (lines : List Text) :
    Prop where
  notEmpty : comment.content ≠ []
  consecutive : ∃ first,
    comment.content.map CommentLine.number = List.range' first comment.content.length
  opens : ∃ first, comment.content.head? = some first ∧
    Text.startsWith first.text block.opening
  closes : ∃ last, comment.content.getLast? = some last ∧
    ∃ body, last.text = body ++ block.closing
  fromFront : ∀ part ∈ comment.content.tail, part.start = 0
  toEnd : ∀ part ∈ comment.content.dropLast, part.ReachesEnd lines
  /-- In a single line the two markers stand apart. -/
  apart : ∀ part, comment.content = [part] →
    ∃ body, part.text = block.opening ++ (body ++ block.closing)

structure WellFormed (comment : Comment) (markers : Markers) (lines : List Text) : Prop where
  cut : ∀ part ∈ comment.content, part.IsCutFrom lines
  ofLine : comment.kind = .line →
    ∃ marker, markers.line = some marker ∧ comment.IsLineComment marker lines
  ofBlock : comment.kind = .block →
    ∃ block, markers.block = some block ∧ comment.IsBlockComment block lines

end Comment

/-! ## Open block comments -/

/-- The parts that an open block comment has in the lines in front of line `number`,
the last of them first. -/
def OpenParts (block : BlockMarkers) (lines : List Text) : Nat → List CommentLine → Prop
  | _, [] => True
  | number, part :: earlier =>
      part.number + 1 = number ∧ part.IsCutFrom lines ∧ part.ReachesEnd lines ∧
        (earlier = [] → Text.startsWith part.text block.opening) ∧
        (earlier ≠ [] → part.start = 0) ∧
        OpenParts block lines part.number earlier

namespace OpenParts

variable {block : BlockMarkers} {lines : List Text} {number : Nat}
  {earlier : List CommentLine}

theorem isCutFrom (opened : OpenParts block lines number earlier) :
    ∀ part ∈ earlier, part.IsCutFrom lines ∧ part.ReachesEnd lines := by
  induction earlier generalizing number with
  | nil => simp
  | cons newest earlier induction =>
      obtain ⟨-, cut, reaches, -, -, later⟩ := opened
      intro part member
      rcases List.mem_cons.mp member with equal | member
      · exact equal ▸ ⟨cut, reaches⟩
      · exact induction later part member

theorem numbers (opened : OpenParts block lines number earlier) :
    ∃ first, first + earlier.length = number ∧
      earlier.reverse.map CommentLine.number = List.range' first earlier.length := by
  induction earlier generalizing number with
  | nil => exact ⟨number, rfl, rfl⟩
  | cons newest earlier induction =>
      obtain ⟨next, -, -, -, -, later⟩ := opened
      obtain ⟨first, total, consecutive⟩ := induction later
      refine ⟨first, by simp only [List.length_cons]; omega, ?_⟩
      rw [List.reverse_cons, List.map_append, consecutive, List.length_cons,
        List.range'_1_concat, List.map_singleton, total]

theorem opens (opened : OpenParts block lines number earlier) {oldest : CommentLine}
    (last : earlier.getLast? = some oldest) : Text.startsWith oldest.text block.opening := by
  induction earlier generalizing number with
  | nil => simp at last
  | cons newest earlier induction =>
      obtain ⟨-, -, -, begins, -, later⟩ := opened
      cases earlier with
      | nil =>
          simp only [List.getLast?_singleton, Option.some.injEq] at last
          exact last ▸ begins rfl
      | cons next earlier =>
          rw [List.getLast?_cons_cons] at last
          exact induction later last

theorem fromFront (opened : OpenParts block lines number earlier) :
    ∀ part ∈ earlier.dropLast, part.start = 0 := by
  induction earlier generalizing number with
  | nil => simp
  | cons newest earlier induction =>
      obtain ⟨-, -, -, -, atFront, later⟩ := opened
      cases earlier with
      | nil => simp
      | cons next earlier =>
          intro part member
          rw [List.dropLast_cons_cons] at member
          rcases List.mem_cons.mp member with equal | member
          · exact equal ▸ atFront (by simp)
          · exact induction later part member

theorem isBlockComment (opened : OpenParts block lines number earlier) (markers : Markers)
    {last : CommentLine} {body : Text} (numbered : last.number = number)
    (closes : last.text = body ++ block.closing)
    (single : earlier = [] → ∃ inner, body = block.opening ++ inner)
    (later : earlier ≠ [] → last.start = 0) :
    (Comment.ofParts markers (last :: earlier)).IsBlockComment block lines := by
  refine {
    notEmpty := by simp [Comment.ofParts]
    consecutive := ?consecutive
    opens := ?opens
    closes := ⟨last, by simp [Comment.ofParts], body, closes⟩
    fromFront := ?fromFront
    toEnd := ?toEnd
    apart := ?apart } <;> simp only [Comment.ofParts]
  case consecutive =>
    obtain ⟨first, total, consecutive⟩ := opened.numbers
    refine ⟨first, ?_⟩
    rw [List.length_reverse, List.length_cons, List.range'_1_concat, List.reverse_cons,
      List.map_append, consecutive, List.map_singleton, numbered, total]
  case opens =>
    rw [List.head?_reverse]
    cases earlier with
    | nil =>
        obtain ⟨inner, equal⟩ := single rfl
        refine ⟨last, rfl, Text.startsWith_iff.mpr ⟨inner ++ block.closing, ?_⟩⟩
        rw [closes, equal, List.append_assoc]
    | cons newest earlier =>
        rw [List.getLast?_cons_cons]
        have oldest := List.getLast?_eq_some_getLast (List.cons_ne_nil newest earlier)
        exact ⟨_, oldest, opened.opens oldest⟩
  case fromFront =>
    intro part member
    rw [List.tail_reverse] at member
    cases earlier with
    | nil => simp at member
    | cons newest earlier =>
        rw [List.dropLast_cons_cons] at member
        rcases List.mem_cons.mp (List.mem_reverse.mp member) with equal | member
        · exact equal ▸ later (List.cons_ne_nil newest earlier)
        · exact opened.fromFront part member
  case toEnd =>
    intro part member
    rw [List.reverse_cons, List.dropLast_concat] at member
    exact (opened.isCutFrom part (List.mem_reverse.mp member)).2
  case apart =>
    intro part alone
    have only : last :: earlier = [part] := by
      rw [← List.reverse_inj, alone]
      rfl
    rw [List.cons.injEq] at only
    obtain ⟨inner, equal⟩ := single only.2
    exact ⟨inner, by rw [← only.1, closes, equal, List.append_assoc]⟩

end OpenParts

/-! ## What is open at some place of a line -/

/-- What a context says about the line in which it is met, when `read` is the part of the
line in front of it and `ahead` the part behind. -/
def Context.Fits (markers : Markers) (lines : List Text) (number : Nat) (read ahead : Text) :
    Context → Prop
  | .block earlier start text =>
      ∃ block front inside, markers.block = some block ∧
        read = front ++ inside ∧ start = Text.size front ∧ text = inside ++ ahead ∧
        OpenParts block lines number earlier ∧
        (earlier = [] → ∃ inner, inside = block.opening ++ inner) ∧
        (earlier ≠ [] → front = [])
  | _ => True

def Context.Resumes (markers : Markers) (lines : List Text) (number : Nat) : Context → Prop
  | .block earlier _ _ =>
      ∃ block, markers.block = some block ∧ earlier ≠ [] ∧ OpenParts block lines number earlier
  | _ => True

namespace Context

variable {markers : Markers} {lines : List Text} {number : Nat} {context : Context}

theorem Fits.advance {read skipped ahead : Text}
    (fits : context.Fits markers lines number read (skipped ++ ahead)) :
    context.Fits markers lines number (read ++ skipped) ahead := by
  cases context with
  | code => trivial
  | quotation quote => trivial
  | block earlier start text =>
      obtain ⟨block, front, inside, given, apart, position, rest, opened, single, later⟩ := fits
      refine ⟨block, front, inside ++ skipped, given, ?_, position, ?_, opened, ?_, later⟩
      · rw [apart, List.append_assoc]
      · rw [rest, List.append_assoc]
      · intro none
        obtain ⟨inner, equal⟩ := single none
        exact ⟨inner ++ skipped, by rw [equal, List.append_assoc]⟩

theorem Resumes.enterLine (resumes : context.Resumes markers lines number) (line : Text) :
    (context.enterLine line).Fits markers lines number [] line := by
  cases context with
  | code => trivial
  | quotation quote => trivial
  | block earlier start text =>
      obtain ⟨block, given, nonempty, opened⟩ := resumes
      exact ⟨block, [], [], given, rfl, rfl, rfl, opened, fun none => absurd none nonempty,
        fun _ => rfl⟩

theorem Fits.leaveLine {line : Text} (found : 1 ≤ number ∧ lines[number - 1]? = some line)
    (fits : context.Fits markers lines number line []) :
    (context.leaveLine number).Resumes markers lines (number + 1) := by
  cases context with
  | code => trivial
  | quotation quote => trivial
  | block earlier start text =>
      obtain ⟨block, front, inside, given, apart, position, rest, opened, single, later⟩ := fits
      rw [List.append_nil] at rest
      have source : (restOfLine number start text).source? lines =
          some (front ++ (text ++ [])) := by
        rw [CommentLine.source?_eq_some_iff, List.append_nil, rest, ← apart]
        exact found
      have cut : (restOfLine number start text).IsCutFrom lines := by
        rw [restOfLine, position] at source ⊢
        exact CommentLine.isCutFrom_of_pieces source
      refine ⟨block, given, List.cons_ne_nil _ _, rfl, cut, ?_, ?_, ?_, opened⟩
      · exact ⟨_, source, by simp [restOfLine, position]⟩
      · intro none
        obtain ⟨inner, equal⟩ := single none
        exact Text.startsWith_iff.mpr ⟨inner, rest.trans equal⟩
      · intro some
        rw [restOfLine, position, later some, Text.size_nil]

/-! ## The comments of a line -/

theorem wellFormed_ofLineMarker {read marker after : Text}
    (found : 1 ≤ number ∧ lines[number - 1]? = some (read ++ (marker ++ after)))
    (given : markers.line = some marker) (length : Nat) :
    (Comment.ofLineMarker markers number
      ⟨.lineComment, Text.size read, length, marker ++ after⟩).WellFormed markers lines := by
  let part : CommentLine :=
    ⟨number, Text.size read, Text.size read + Text.size (marker ++ after), marker ++ after⟩
  have source : part.source? lines = some (read ++ ((marker ++ after) ++ [])) := by
    rw [CommentLine.source?_eq_some_iff, List.append_nil]
    exact found
  have reaches : part.ReachesEnd lines := by
    refine ⟨_, source, ?_⟩
    rw [List.append_nil, Text.size_append]
  refine ⟨?_, fun _ => ⟨marker, given, part, rfl, Text.startsWith_append _ _, reaches⟩,
    fun kind => CommentKind.noConfusion kind⟩
  intro _ member
  rw [List.mem_singleton.mp member]
  exact CommentLine.isCutFrom_of_pieces source

theorem Fits.wellFormed_ofParts {earlier : List CommentLine} {start : Nat}
    {read text closing after : Text} {block : BlockMarkers}
    (found : 1 ≤ number ∧ lines[number - 1]? = some (read ++ (closing ++ after)))
    (fits : (Context.block earlier start text).Fits markers lines number read (closing ++ after))
    (given : markers.block = some block) (ends : closing = block.closing) :
    (Comment.ofParts markers
      (frontOfLine number start (Text.size read + Text.size closing) text :: earlier)).WellFormed
        markers lines := by
  obtain ⟨open_, front, inside, same, apart, position, rest, opened, single, later⟩ := fits
  obtain rfl : open_ = block := Option.some.inj (same.symm.trans given)
  have width : Text.size read + Text.size closing =
      Text.size front + Text.size (inside ++ closing) := by
    rw [apart, Text.size_append, Text.size_append, Nat.add_assoc]
  have cutText : Text.takeBytes (Text.size (inside ++ closing)) text = inside ++ closing := by
    rw [rest, ← List.append_assoc, Text.takeBytes_size_append]
  have part : frontOfLine number start (Text.size read + Text.size closing) text =
      ⟨number, Text.size front, Text.size front + Text.size (inside ++ closing),
        inside ++ closing⟩ := by
    rw [frontOfLine, width, position, Nat.add_sub_cancel_left, cutText]
  rw [part]
  have source : (⟨number, Text.size front, Text.size front + Text.size (inside ++ closing),
      inside ++ closing⟩ : CommentLine).source? lines =
        some (front ++ ((inside ++ closing) ++ after)) := by
    rw [CommentLine.source?_eq_some_iff, found.2, apart]
    simp [found.1]
  have cut := CommentLine.isCutFrom_of_pieces source
  refine ⟨?_, fun kind => CommentKind.noConfusion kind, fun _ => ⟨open_, given, ?_⟩⟩
  · intro _ member
    rcases List.mem_cons.mp (List.mem_reverse.mp member) with equal | member
    · exact equal ▸ cut
    · exact (opened.isCutFrom _ member).1
  · refine opened.isBlockComment markers rfl (congrArg (inside ++ ·) ends) single fun some => ?_
    rw [later some, Text.size_nil]

theorem Fits.wellFormed_of_completed? {read marker after : Text} {mark : Mark}
    (found : 1 ≤ number ∧ lines[number - 1]? = some (read ++ (marker ++ after)))
    (fits : context.Fits markers lines number read (marker ++ after))
    (member : (mark, marker) ∈ markers.table) :
    ∀ comment, completed? markers number context
        ⟨mark, Text.size read, Text.size marker, marker ++ after⟩ = some comment →
      comment.WellFormed markers lines := by
  intro comment completed
  match context, mark with
  | .code, .lineComment =>
      have given := (Markers.lineComment_mem_table_iff.mp member).1
      obtain rfl := Option.some.inj completed
      exact wellFormed_ofLineMarker found given _
  | .block earlier start text, .blockClosing =>
      obtain ⟨⟨block, given, ends⟩, -⟩ := Markers.blockClosing_mem_table_iff.mp member
      obtain rfl := Option.some.inj completed
      exact fits.wellFormed_ofParts found given ends
  | .code, .blockOpening | .code, .blockClosing | .code, .quotation _
  | .block .., .lineComment | .block .., .blockOpening | .block .., .quotation _
  | .quotation _, .lineComment | .quotation _, .blockOpening
  | .quotation _, .blockClosing | .quotation _, .quotation _ =>
      simp [completed?] at completed

theorem Fits.behind {read marker after : Text} {mark : Mark}
    (fits : context.Fits markers lines number read (marker ++ after))
    (member : (mark, marker) ∈ markers.table) :
    (context.behind ⟨mark, Text.size read, Text.size marker, marker ++ after⟩).Fits
      markers lines number (read ++ marker) after := by
  match context, mark with
  | .code, .blockOpening =>
      obtain ⟨⟨block, given, equal⟩, -⟩ := Markers.blockOpening_mem_table_iff.mp member
      refine ⟨block, read, marker, given, rfl, rfl, rfl, trivial, ?_, ?_⟩
      · exact fun _ => ⟨[], by rw [equal, List.append_nil]⟩
      · exact fun some => absurd rfl some
  | .quotation openQuote, .quotation quote =>
      simp only [Context.behind]
      split <;> trivial
  | .code, .lineComment | .code, .blockClosing | .code, .quotation _
  | .quotation _, .lineComment | .quotation _, .blockOpening
  | .quotation _, .blockClosing | .block .., .blockClosing => trivial
  | .block .., .lineComment | .block .., .blockOpening | .block .., .quotation _ =>
      exact fits.advance

/-- Each token of a line keeps the context true to the line, and each comment that it
completes is well formed. -/
theorem Fits.readTokens {read ahead : Text}
    (found : 1 ≤ number ∧ lines[number - 1]? = some (read ++ ahead))
    (fits : context.Fits markers lines number read ahead) :
    let result := Context.readTokens markers number context
      (Markers.tokensFrom markers.table (Text.size read) ahead)
    (∀ comment ∈ result.1, comment.WellFormed markers lines) ∧
      result.2.Fits markers lines number (read ++ ahead) [] := by
  -- Each step keeps what fits: skipped text, and a marker without an effect, becomes a
  -- part of the open comment.
  induction ahead using Markers.induction_markAt? markers generalizing read context with
  | nil => simpa using fits
  | skip character rest stands induction =>
      have passed : 1 ≤ number ∧ lines[number - 1]? = some (read ++ [character] ++ rest) := by
        simpa using found
      have advanced : context.Fits markers lines number (read ++ [character]) rest :=
        Fits.advance fits
      have later := induction passed advanced
      rw [Markers.tokensFrom_skip stands]
      simpa using later
  | meet mark marker after stands induction =>
      have member := Markers.mem_of_markAt? stands
      have passed : 1 ≤ number ∧ lines[number - 1]? = some (read ++ marker ++ after) := by
        simpa using found
      have later : ∀ context : Context,
          context.Fits markers lines number (read ++ marker) after →
          let result := Context.readTokens markers number context
            (Markers.tokensFrom markers.table (Text.size read + Text.size marker) after)
          (∀ comment ∈ result.1, comment.WellFormed markers lines) ∧
            result.2.Fits markers lines number (read ++ (marker ++ after)) [] := by
        intro context fits
        have later := induction passed fits
        simpa using later
      rw [Markers.tokensFrom_meet stands]
      cases counts : context.counts mark with
      | false =>
          rw [readTokens_of_not_counts markers number counts]
          exact later context fits.advance
      | true =>
          have completed := fits.wellFormed_of_completed? found member
          rw [readTokens_cons]
          by_cases takes : context.takesLine mark = true
          · have isCode : context = .code := by
              cases context <;> simp [takesLine] at takes ⊢
            simp only [takes, if_true, List.append_nil, Option.mem_toList]
            exact ⟨completed, isCode ▸ trivial⟩
          · obtain ⟨comments, behind⟩ := later _ (fits.behind member)
            simp only [takes]
            refine ⟨?_, behind⟩
            intro comment inside
            rcases List.mem_append.mp inside with inside | inside
            · exact completed comment (Option.mem_toList.mp inside)
            · exact comments comment inside

/-! ## The comments of a file -/

theorem Resumes.readLine (resumes : context.Resumes markers lines number) {line : Text}
    (found : 1 ≤ number ∧ lines[number - 1]? = some line) :
    let result := Context.readLine markers number context line
    (∀ comment ∈ result.1, comment.WellFormed markers lines) ∧
      result.2.Resumes markers lines (number + 1) := by
  obtain ⟨comments, fits⟩ := (resumes.enterLine line).readTokens found
  exact ⟨comments, fits.leaveLine found⟩

end Context

namespace Comment

theorem WellFormed.append {comment : Comment} {markers : Markers} {lines : List Text}
    (wellFormed : comment.WellFormed markers lines) (more : List Text) :
    comment.WellFormed markers (lines ++ more) := by
  refine ⟨fun part member => (wellFormed.cut part member).append more, ?_, ?_⟩
  · intro kind
    obtain ⟨marker, given, part, only, starts, reaches⟩ := wellFormed.ofLine kind
    exact ⟨marker, given, part, only, starts, reaches.append more⟩
  · intro kind
    obtain ⟨block, given, shape⟩ := wellFormed.ofBlock kind
    exact ⟨block, given,
      { shape with toEnd := fun part member => (shape.toEnd part member).append more }⟩

theorem sourceLines_none (limit : Option Nat) (content : Bytes) :
    ∃ more, Text.sourceLines none content = Text.sourceLines limit content ++ more := by
  cases limit with
  | none => exact ⟨[], by rw [List.append_nil]⟩
  | some bound =>
      refine ⟨((Text.byteLines content).drop bound).map Text.decode, ?_⟩
      simp [Text.sourceLines, -List.map_append]

theorem length_sourceLines_le (bound : Nat) (content : Bytes) :
    (Text.sourceLines (some bound) content).length ≤ bound := by
  rw [Text.sourceLines, List.length_map]
  exact List.length_take_le bound _

/-- A comment is well formed already with respect to the lines that are read. -/
theorem wellFormed_sourceLines {markers : Markers} {limit : Option Nat} {content : Bytes}
    {comment : Comment} (member : comment ∈ extract markers limit content) :
    comment.WellFormed markers (Text.sourceLines limit content) := by
  have start : Context.code.Resumes markers (Text.sourceLines limit content) 1 := trivial
  have each := Context.forall_mem_readLines
    (fun _ _ _ found resumes => Context.Resumes.readLine resumes found) start
  exact each comment member

/-- Every comment of a file is well formed with respect to the lines of the whole file,
and none of its parts lies behind the last line that is read. -/
theorem wellFormed_of_mem_extract {markers : Markers} {limit : Option Nat}
    {content : Bytes} {comment : Comment}
    (member : comment ∈ Comment.extract markers limit content) :
    comment.WellFormed markers (Text.sourceLines none content) ∧
      ∀ part ∈ comment.content, 1 ≤ part.number ∧
        part.number ≤ (Text.sourceLines none content).length ∧
        ∀ bound, limit = some bound → part.number ≤ bound := by
  have wellFormed := wellFormed_sourceLines member
  obtain ⟨more, whole⟩ := sourceLines_none limit content
  refine ⟨whole ▸ wellFormed.append more, ?_⟩
  intro part inside
  have numbered := (wellFormed.cut part inside).number_le
  refine ⟨numbered.1, ?_, ?_⟩
  · rw [whole, List.length_append]
    omega
  · rintro bound rfl
    exact Nat.le_trans numbered.2 (length_sourceLines_le bound content)

private def slashMarkers : Markers where
  line := some "//".toList
  block := some ⟨"/*".toList, "*/".toList⟩
  singleQuote := true
  doubleQuote := true
  backtick := false

private def twoLines : Bytes := Text.encode "/**/x/*é\n/*/ */".toList

private def blockOfTwoLines : Comment where
  kind := .block
  opening := "/*".toList
  closing := "*/".toList
  content := [⟨1, 5, 9, "/*é".toList⟩, ⟨2, 0, 6, "/*/ */".toList⟩]

/-- A block comment that begins behind another one and hides a closing marker. -/
theorem wellFormed_blockOfTwoLines :
    blockOfTwoLines ∈ Comment.extract slashMarkers (some 2) twoLines ∧
      blockOfTwoLines.WellFormed slashMarkers (Text.sourceLines none twoLines) ∧
      ∀ part ∈ blockOfTwoLines.content, 1 ≤ part.number ∧
        part.number ≤ (Text.sourceLines none twoLines).length ∧
        ∀ bound, some 2 = some bound → part.number ≤ bound := by
  have member : blockOfTwoLines ∈ Comment.extract slashMarkers (some 2) twoLines := by
    decide +kernel
  exact ⟨member, wellFormed_of_mem_extract member⟩

end Comment

end LicenseSurvey

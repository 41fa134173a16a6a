import LicenseSurvey.Comment.Basic
import LicenseSurvey.Comment.Marker
import LicenseSurvey.Text.Line
import LicenseSurvey.Text.Utf8

/-! # The comments of a file

The lines of a file are read in order. At most one thing is open at a time: a
block comment or a quotation. While a block comment is open only its closing
marker counts, and while a quotation is open only quotation marks count. An
escaped quotation mark counts like any other, and a different mark takes the
place of the open one. A block comment that never closes is dropped.
-/

namespace LicenseSurvey

/-- What is open at some place of a line. -/
inductive Context where
  | code
  /-- A block comment: its parts in earlier lines, the last of them first, and where
  its part in the present line begins, with the line from there on. -/
  | block (earlier : List CommentLine) (start : Nat) (ahead : Text)
  | quotation (quote : Quote)
deriving DecidableEq, Repr

namespace Comment

def ofLineMarker (markers : Markers) (number : Nat) (token : MarkToken) : Comment where
  kind := .line
  opening := markers.line.getD []
  closing := []
  content :=
    [⟨number, token.position, token.position + Text.size token.ahead, token.ahead⟩]

def ofParts (markers : Markers) (parts : List CommentLine) : Comment where
  kind := .block
  opening := (markers.block.map BlockMarkers.opening).getD []
  closing := (markers.block.map BlockMarkers.closing).getD []
  content := parts.reverse

end Comment

namespace Context

def restOfLine (number start : Nat) (ahead : Text) : CommentLine :=
  ⟨number, start, start + Text.size ahead, ahead⟩

def frontOfLine (number start stop : Nat) (ahead : Text) : CommentLine :=
  ⟨number, start, stop, Text.takeBytes (stop - start) ahead⟩

def enterLine (line : Text) : Context → Context
  | .block earlier _ _ => .block earlier 0 line
  | context => context

def leaveLine (number : Nat) : Context → Context
  | .block earlier start ahead => .block (restOfLine number start ahead :: earlier) 0 []
  | context => context

/-- The comments that end in a line, and what is open behind its last marker. A
line comment takes the rest of its line. -/
def readTokens (markers : Markers) (number : Nat) :
    Context → List MarkToken → List Comment × Context
  | context, [] => ([], context)
  | context, token :: tokens =>
      match context, token.mark with
      | .code, .lineComment => ([.ofLineMarker markers number token], .code)
      | .code, .blockOpening =>
          readTokens markers number (.block [] token.position token.ahead) tokens
      | .block earlier start ahead, .blockClosing =>
          let (comments, context) := readTokens markers number .code tokens
          (.ofParts markers (frontOfLine number start token.stop ahead :: earlier) :: comments,
            context)
      | .code, .quotation quote => readTokens markers number (.quotation quote) tokens
      | .quotation openQuote, .quotation quote =>
          readTokens markers number
            (if openQuote = quote then .code else .quotation quote) tokens
      | context, _ => readTokens markers number context tokens

def readLine (markers : Markers) (number : Nat) (context : Context) (line : Text) :
    List Comment × Context :=
  let (comments, context) :=
    readTokens markers number (context.enterLine line) (markers.tokens line)
  (comments, context.leaveLine number)

def readLines (markers : Markers) (number : Nat) (context : Context) :
    List Text → List Comment × Context
  | [] => ([], context)
  | line :: lines =>
      let (comments, context) := readLine markers number context line
      let (later, context) := readLines markers (number + 1) context lines
      (comments ++ later, context)

end Context

namespace Text

def sourceLines (limit : Option Nat) (content : Bytes) : List Text :=
  let lines := byteLines content
  ((limit.map lines.take).getD lines).map decode

end Text

def Comment.extract (markers : Markers) (limit : Option Nat) (content : Bytes) :
    List Comment :=
  (Context.readLines markers 1 .code (Text.sourceLines limit content)).1

end LicenseSurvey

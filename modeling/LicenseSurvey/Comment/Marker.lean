import LicenseSurvey.Language.Basic

/-! # Markers in a line

A line is searched for the markers of its language from left to right, without
regard to comments and quotations that are open. At each place the markers are
tried in a fixed order and the first that stands there wins, whatever its length;
the search goes on behind it.
-/

namespace LicenseSurvey

inductive Mark where
  | lineComment
  | blockOpening
  | blockClosing
  | quotation (quote : Quote)
deriving DecidableEq, Repr

def Mark.isQuotation : Mark → Bool
  | .quotation _ => true
  | _ => false

/-- A marker found in a line. Positions count bytes. -/
structure MarkToken where
  mark : Mark
  position : Nat
  length : Nat
  /-- The line from the marker on. -/
  ahead : Text
deriving DecidableEq, Repr

def MarkToken.stop (token : MarkToken) : Nat := token.position + token.length

namespace Markers

def quoteMarker (markers : Markers) (quote : Quote) : List (Mark × Text) :=
  if markers.hasQuote quote then [(.quotation quote, quote.text)] else []

/-- The markers in the order in which they are tried. An empty marker is never
found, so it is left out. -/
def table (markers : Markers) : List (Mark × Text) :=
  (markers.line.toList.map (fun marker => (Mark.lineComment, marker)) ++
    markers.block.toList.flatMap (fun block =>
      [(Mark.blockOpening, block.opening), (Mark.blockClosing, block.closing)]) ++
    markers.quoteMarker .single ++ markers.quoteMarker .double ++
    markers.quoteMarker .backtick).filter fun entry => !entry.2.isEmpty

def markAt? (table : List (Mark × Text)) (text : Text) : Option (Mark × Text) :=
  table.find? fun entry => Text.startsWith text entry.2

def tokensFrom (table : List (Mark × Text)) (position : Nat) : Text → List MarkToken
  | [] => []
  | character :: rest =>
      match markAt? table (character :: rest) with
      | some (mark, marker) =>
          ⟨mark, position, Text.size marker, character :: rest⟩ ::
            tokensFrom table (position + Text.size marker) (rest.drop (marker.length - 1))
      | none => tokensFrom table (position + character.utf8Size) rest
termination_by text => text.length
decreasing_by
  · simp only [List.length_cons, List.length_drop]
    omega
  · simp

def tokens (markers : Markers) (line : Text) : List MarkToken :=
  tokensFrom markers.table 0 line

end Markers

end LicenseSurvey

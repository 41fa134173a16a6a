import LicenseSurvey.Text.Basic

/-! # Tags

A tag is written as a name, a colon and a value. The shape of a key says how far
its value reaches and into what it is broken up. The labels of a table of keys
are a type of their own, so that each kind of document can name its fields.
-/

namespace LicenseSurvey

inductive Shape where
  /-- The rest of the line. -/
  | line
  /-- The rest of the line and all lines up to the next key. -/
  | formatted
  /-- One element per line that is not blank, up to the next key. -/
  | lines
  /-- The words up to the next key. -/
  | words
  /-- No value and no colon; the name alone is the tag. -/
  | marker
deriving DecidableEq, Repr

structure Key (Label : Type) where
  name : Text
  label : Label
  shape : Shape
deriving DecidableEq, Repr

def Key.row {Label : Type} (name : String) (label : Label) (shape : Shape) : Key Label :=
  ⟨name.toList, label, shape⟩

inductive Value where
  | text (content : Text)
  | list (elements : List Text)
deriving DecidableEq, Repr

namespace Value

def asText : Value → Text
  | .text content => content
  | .list elements => Text.join ['\n'] elements

def asList : Value → List Text
  | .text content => if content = [] then [] else [content]
  | .list elements => elements

end Value

structure Tag (Label : Type) where
  label : Label
  value : Value
deriving DecidableEq, Repr

end LicenseSurvey

import LicenseSurvey.Tag.Basic

/-! # Keys in a line

A key may stand anywhere in a line. The key that begins first is the one that
counts, and of several that begin at the same place the first of the table.
-/

namespace LicenseSurvey

def Text.startsWithName : (text name : Text) → Bool
  | _, [] => true
  | [], _ :: _ => false
  | character :: text, letter :: name =>
      sameLetter character letter && startsWithName text name

namespace Key

def length {Label : Type} (key : Key Label) : Nat :=
  if key.shape = .marker then key.name.length else key.name.length + 1

def size {Label : Type} (key : Key Label) : Nat :=
  if key.shape = .marker then Text.size key.name else Text.size key.name + 1

/-- Whether the key stands at the front of the text. A key without a name stands
nowhere, and every key but a marker needs its colon. -/
def standsAt {Label : Type} (key : Key Label) (text : Text) : Bool :=
  !key.name.isEmpty && Text.startsWithName text key.name &&
    (key.shape == .marker || (text.drop key.name.length).head? == some ':')

structure Occurrence (Label : Type) where
  key : Key Label
  /-- What stands in front of the key. -/
  before : Text
  /-- What stands behind the key and its colon. -/
  after : Text
deriving DecidableEq, Repr

def Occurrence.start {Label : Type} (found : Occurrence Label) : Nat :=
  Text.size found.before

def Occurrence.stop {Label : Type} (found : Occurrence Label) : Nat :=
  found.start + found.key.size

def atFront? {Label : Type} (keys : List (Key Label)) (text : Text) : Option (Key Label) :=
  keys.find? fun key => key.standsAt text

def find? {Label : Type} (keys : List (Key Label)) : (line : Text) → Option (Occurrence Label)
  | [] => none
  | character :: rest =>
      match atFront? keys (character :: rest) with
      | some key => some ⟨key, [], (character :: rest).drop key.length⟩
      | none =>
          (find? keys rest).map fun found =>
            { found with before := character :: found.before }

end Key

end LicenseSurvey

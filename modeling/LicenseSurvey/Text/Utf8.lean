import LicenseSurvey.Text.Basic

/-! # UTF-8

Decoding reads one byte at a time. Between bytes it remembers at most one begun
character, and which bytes may continue it. Each maximal ill-formed part of the
input becomes one replacement character, so decoding never fails; a byte string
is well formed when encoding its decoding gives it back.
-/

namespace LicenseSurvey.Text

def encode (text : Text) : Bytes := text.flatMap String.utf8EncodeChar

structure Begun where
  bits : Nat
  /-- How many bytes are still to come after the next one. -/
  later : Nat
  low : Nat
  high : Nat
deriving DecidableEq, Repr

inductive Lead where
  | whole (character : Char)
  | begun (start : Begun)
  | invalid
deriving DecidableEq, Repr

/-- The meaning of a first byte. The bounds on the second byte leave out
overlong forms, surrogates and code points above the last one. -/
def Lead.ofByte (byte : UInt8) : Lead :=
  let value := byte.toNat
  if value < 0x80 then .whole (Char.ofNat value)
  else if value < 0xC2 then .invalid
  else if value < 0xE0 then .begun ⟨value - 0xC0, 0, 0x80, 0xBF⟩
  else if value < 0xF0 then
    .begun ⟨value - 0xE0, 1, if value = 0xE0 then 0xA0 else 0x80,
      if value = 0xED then 0x9F else 0xBF⟩
  else if value < 0xF5 then
    .begun ⟨value - 0xF0, 2, if value = 0xF0 then 0x90 else 0x80,
      if value = 0xF4 then 0x8F else 0xBF⟩
  else .invalid

def replacement : Char := '\uFFFD'

def decodeFrom : Option Begun → Bytes → Text
  | none, [] => []
  | some _, [] => [replacement]
  | none, byte :: rest =>
      match Lead.ofByte byte with
      | .whole character => character :: decodeFrom none rest
      | .begun start => decodeFrom (some start) rest
      | .invalid => replacement :: decodeFrom none rest
  | some begun, byte :: rest =>
      let value := byte.toNat
      if begun.low ≤ value ∧ value ≤ begun.high then
        let bits := begun.bits * 64 + (value - 0x80)
        match begun.later with
        | 0 => Char.ofNat bits :: decodeFrom none rest
        | later + 1 => decodeFrom (some ⟨bits, later, 0x80, 0xBF⟩) rest
      else
        replacement ::
          match Lead.ofByte byte with
          | .whole character => character :: decodeFrom none rest
          | .begun start => decodeFrom (some start) rest
          | .invalid => replacement :: decodeFrom none rest

def decode (content : Bytes) : Text := decodeFrom none content

example : decode [0x61, 0xC3, 0xA9, 0xE2, 0x82, 0xAC, 0xF0, 0x9F, 0x98, 0x80] =
    ['a', 'é', '€', '😀'] := by decide

/-- An ill-formed part ends before the first byte that cannot belong to it. -/
example : decode [0xE2, 0x82, 0x41, 0xC0, 0xED, 0xA0] =
    [replacement, 'A', replacement, replacement, replacement] := by decide

def decodeExact? (content : Bytes) : Option Text :=
  let text := decode content
  if encode text = content then some text else none

example : decodeExact? [0xFF] = none := by decide

end LicenseSurvey.Text

import LicenseSurvey.Text.Basic

/-! # Languages

A language is known by the file names it claims, and it tells how comments and
quotations are marked. Everything else about a language is of no interest here.
-/

namespace LicenseSurvey

structure BlockMarkers where
  opening : Text
  closing : Text
deriving DecidableEq, Repr

inductive Quote where
  | single
  | double
  | backtick
deriving DecidableEq, Repr

def Quote.text : Quote → Text
  | .single => ['\x27']
  | .double => ['"']
  | .backtick => ['\x60']

structure Markers where
  /-- Starts a comment that ends with its line. -/
  line : Option Text
  /-- Surround a comment of any length. -/
  block : Option BlockMarkers
  singleQuote : Bool
  doubleQuote : Bool
  backtick : Bool
deriving DecidableEq, Repr

def Markers.hasQuote (markers : Markers) : Quote → Bool
  | .single => markers.singleQuote
  | .double => markers.doubleQuote
  | .backtick => markers.backtick

structure Language where
  name : Text
  /-- Extensions in lower case, without the dot. -/
  extensions : List Text
  /-- File names that are claimed whatever their extension. -/
  fileNames : List Text
  markers : Markers
deriving DecidableEq, Repr

end LicenseSurvey

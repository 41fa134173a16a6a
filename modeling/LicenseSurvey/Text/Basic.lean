/-! # Text

A text is a list of characters. Positions inside a line count the bytes of its
UTF-8 form, as editors and compilers do. The operations here are the ones the
rest of the library is written in: trimming, splitting, joining and comparing.
-/

namespace LicenseSurvey

abbrev Text := List Char

abbrev Bytes := List UInt8

namespace Text

/-! ## Sizes and slices -/

def size : Text → Nat
  | [] => 0
  | character :: rest => character.utf8Size + size rest

@[simp] theorem size_nil : size [] = 0 := rfl

@[simp] theorem size_cons (character : Char) (rest : Text) :
    size (character :: rest) = character.utf8Size + size rest := rfl

@[simp] theorem size_append (left right : Text) :
    size (left ++ right) = size left + size right := by
  induction left with
  | nil => simp
  | cons character rest induction => simp [induction, Nat.add_assoc]

/-- The characters that begin before byte position `count`. -/
def takeBytes : Nat → Text → Text
  | 0, _ => []
  | _, [] => []
  | count, character :: rest => character :: takeBytes (count - character.utf8Size) rest

/-- The characters that begin at or after byte position `count`. -/
def dropBytes : Nat → Text → Text
  | 0, text => text
  | _, [] => []
  | count, character :: rest => dropBytes (count - character.utf8Size) rest

def slice (start stop : Nat) (text : Text) : Text :=
  takeBytes (stop - start) (dropBytes start text)

example : slice 2 5 ['é', 'a', '→', 'b'] = ['a', '→'] := by decide

@[simp] theorem takeBytes_zero (text : Text) : takeBytes 0 text = [] := by
  cases text <;> rfl

@[simp] theorem dropBytes_zero (text : Text) : dropBytes 0 text = text := by
  cases text <;> rfl

@[simp] theorem takeBytes_size_append (front back : Text) :
    takeBytes (size front) (front ++ back) = front := by
  induction front with
  | nil => simp
  | cons character rest induction =>
      have positive := character.utf8Size_pos
      rw [size_cons, List.cons_append, takeBytes, Nat.add_sub_cancel_left, induction]
      omega

@[simp] theorem dropBytes_size_append (front back : Text) :
    dropBytes (size front) (front ++ back) = back := by
  induction front with
  | nil => simp
  | cons character rest induction =>
      have positive := character.utf8Size_pos
      rw [size_cons, List.cons_append, dropBytes, Nat.add_sub_cancel_left, induction]
      omega

/-! ## Blank characters -/

/-- The characters with the Unicode property White_Space. -/
def isBlank (character : Char) : Bool :=
  let code := character.toNat
  (9 ≤ code && code ≤ 13) || code == 0x20 || code == 0x85 || code == 0xA0 ||
    code == 0x1680 || (0x2000 ≤ code && code ≤ 0x200A) || code == 0x2028 ||
    code == 0x2029 || code == 0x202F || code == 0x205F || code == 0x3000

def trimStart (text : Text) : Text := text.dropWhile isBlank

def trimEnd (text : Text) : Text := (text.reverse.dropWhile isBlank).reverse

def trim (text : Text) : Text := trimEnd (trimStart text)

example : trim [' ', '\t', 'a', ' ', 'b', '\u3000'] = ['a', ' ', 'b'] := by decide

/-! ## Splitting and joining -/

/-- The pieces between the elements that satisfy `isSeparator`. There is always
one piece more than there are separators, so an empty list has one empty piece. -/
def splitBy {α : Type} (isSeparator : α → Bool) : List α → List (List α)
  | [] => [[]]
  | element :: rest =>
      if isSeparator element then
        [] :: splitBy isSeparator rest
      else
        match splitBy isSeparator rest with
        | [] => [[element]]
        | piece :: pieces => (element :: piece) :: pieces

@[simp] theorem splitBy_nil {α : Type} (isSeparator : α → Bool) :
    splitBy isSeparator [] = [[]] := rfl

theorem splitBy_ne_nil {α : Type} (isSeparator : α → Bool) (elements : List α) :
    splitBy isSeparator elements ≠ [] := by
  cases elements with
  | nil => simp [splitBy]
  | cons element rest =>
      rw [splitBy]
      split
      · simp
      · split <;> simp

def words (text : Text) : List Text :=
  (splitBy isBlank text).filter (!·.isEmpty)

example : words [' ', 'a', 'b', '\n', 'c'] = [['a', 'b'], ['c']] := by decide

def join (separator : Text) : List Text → Text
  | [] => []
  | [text] => text
  | text :: next :: rest => text ++ separator ++ join separator (next :: rest)

/-! ## Fronts and backs -/

def dropFront? : (front text : Text) → Option Text
  | [], text => some text
  | _ :: _, [] => none
  | expected :: front, character :: rest =>
      if expected = character then dropFront? front rest else none

theorem dropFront?_eq_some_iff {front text rest : Text} :
    dropFront? front text = some rest ↔ text = front ++ rest := by
  induction front generalizing text with
  | nil => simp [dropFront?]
  | cons expected front induction =>
      cases text with
      | nil => simp [dropFront?]
      | cons character text =>
          by_cases equal : expected = character
          · simp [dropFront?, equal, induction]
          · simp [dropFront?, equal, Ne.symm equal]

def startsWith (text front : Text) : Bool := (dropFront? front text).isSome

theorem startsWith_iff {text front : Text} :
    startsWith text front = true ↔ ∃ rest, text = front ++ rest := by
  simp only [startsWith, Option.isSome_iff_exists, dropFront?_eq_some_iff]

def withoutFront (front text : Text) : Text := (dropFront? front text).getD text

def withoutBack (back text : Text) : Text :=
  ((dropFront? back.reverse text.reverse).map List.reverse).getD text

example : withoutBack ['*', '/'] ['a', '*', '/'] = ['a'] := by decide

/-! ## Letter case -/

def lower (text : Text) : Text := text.map Char.toLower

def sameLetter (left right : Char) : Bool := left.toLower == right.toLower

def sameLetters (left right : Text) : Bool := lower left == lower right

/-! ## Order -/

/-- Order by code points, which is also the order of the UTF-8 forms. -/
def precedes : Text → Text → Bool
  | [], [] => false
  | [], _ :: _ => true
  | _ :: _, [] => false
  | left :: lefts, right :: rights =>
      left.toNat < right.toNat || (left == right && precedes lefts rights)

end Text

end LicenseSurvey

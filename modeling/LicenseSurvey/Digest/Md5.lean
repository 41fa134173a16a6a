import LicenseSurvey.Digest.Block

/-! # MD5

The digest that a file's identifier is made of. Four words are mixed with the
sixteen words of each block in an order that changes with the round.
-/

namespace LicenseSurvey.Digest.Md5

structure State where
  a : UInt32
  b : UInt32
  c : UInt32
  d : UInt32
deriving DecidableEq, Repr

def start : State := ⟨0x67452301, 0xEFCDAB89, 0x98BADCFE, 0x10325476⟩

/-- The constants of the rounds: the first 32 binary digits behind the point of
the sines of 1, 2, 3 and so on. -/
def constants : Array UInt32 :=
  #[
    0xD76AA478, 0xE8C7B756, 0x242070DB, 0xC1BDCEEE, 0xF57C0FAF, 0x4787C62A,
    0xA8304613, 0xFD469501, 0x698098D8, 0x8B44F7AF, 0xFFFF5BB1, 0x895CD7BE,
    0x6B901122, 0xFD987193, 0xA679438E, 0x49B40821, 0xF61E2562, 0xC040B340,
    0x265E5A51, 0xE9B6C7AA, 0xD62F105D, 0x02441453, 0xD8A1E681, 0xE7D3FBC8,
    0x21E1CDE6, 0xC33707D6, 0xF4D50D87, 0x455A14ED, 0xA9E3E905, 0xFCEFA3F8,
    0x676F02D9, 0x8D2A4C8A, 0xFFFA3942, 0x8771F681, 0x6D9D6122, 0xFDE5380C,
    0xA4BEEA44, 0x4BDECFA9, 0xF6BB4B60, 0xBEBFBC70, 0x289B7EC6, 0xEAA127FA,
    0xD4EF3085, 0x04881D05, 0xD9D4D039, 0xE6DB99E5, 0x1FA27CF8, 0xC4AC5665,
    0xF4292244, 0x432AFF97, 0xAB9423A7, 0xFC93A039, 0x655B59C3, 0x8F0CCC92,
    0xFFEFF47D, 0x85845DD1, 0x6FA87E4F, 0xFE2CE6E0, 0xA3014314, 0x4E0811A1,
    0xF7537E82, 0xBD3AF235, 0x2AD7D2BB, 0xEB86D391 ]

def turns : Array UInt32 := #[7, 12, 17, 22, 5, 9, 14, 20, 4, 11, 16, 23, 6, 10, 15, 21]

def turn (round : Nat) : UInt32 := wordAt turns (round / 16 * 4 + round % 4)

def mix (round : Nat) (b c d : UInt32) : UInt32 :=
  match round / 16 with
  | 0 => (b &&& c) ||| ((~~~b) &&& d)
  | 1 => (d &&& b) ||| ((~~~d) &&& c)
  | 2 => b ^^^ c ^^^ d
  | _ => c ^^^ (b ||| (~~~d))

def place (round : Nat) : Nat :=
  match round / 16 with
  | 0 => round
  | 1 => (5 * round + 1) % 16
  | 2 => (3 * round + 5) % 16
  | _ => 7 * round % 16

def State.step (words : Array UInt32) (state : State) (round : Nat) : State :=
  let sum :=
    state.a + mix round state.b state.c state.d + wordAt constants round +
      wordAt words (place round)
  ⟨state.d, state.b + rotateLeft sum (turn round), state.b, state.c⟩

def State.absorb (state : State) (block : List UInt32) : State :=
  let mixed := (List.range 64).foldl (State.step block.toArray) state
  ⟨state.a + mixed.a, state.b + mixed.b, state.c + mixed.c, state.d + mixed.d⟩

def digest (message : Bytes) : Text :=
  let state := (paddedBlocks .lowFirst message).foldl State.absorb start
  hexOfWords .lowFirst [state.a, state.b, state.c, state.d]

end LicenseSurvey.Digest.Md5

import LicenseSurvey.Digest.Block

/-! # SHA-1

The checksum of a file's content. Five words are mixed with the eighty words that
each block is stretched to.
-/

namespace LicenseSurvey.Digest.Sha1

structure State where
  a : UInt32
  b : UInt32
  c : UInt32
  d : UInt32
  e : UInt32
deriving DecidableEq, Repr

def start : State := ⟨0x67452301, 0xEFCDAB89, 0x98BADCFE, 0x10325476, 0xC3D2E1F0⟩

def stretch (words : Array UInt32) : (count : Nat) → Array UInt32
  | 0 => words
  | count + 1 =>
      let earlier := stretch words count
      let size := earlier.size
      earlier.push (rotateLeft
        (wordAt earlier (size - 3) ^^^ wordAt earlier (size - 8) ^^^
          wordAt earlier (size - 14) ^^^ wordAt earlier (size - 16)) 1)

def mix (round : Nat) (b c d : UInt32) : UInt32 :=
  if round < 20 then (b &&& c) ||| ((~~~b) &&& d)
  else if 40 ≤ round && round < 60 then (b &&& c) ||| (b &&& d) ||| (c &&& d)
  else b ^^^ c ^^^ d

def constant (round : Nat) : UInt32 :=
  if round < 20 then 0x5A827999
  else if round < 40 then 0x6ED9EBA1
  else if round < 60 then 0x8F1BBCDC
  else 0xCA62C1D6

def State.step (words : Array UInt32) (state : State) (round : Nat) : State :=
  let next :=
    rotateLeft state.a 5 + mix round state.b state.c state.d + state.e + constant round +
      wordAt words round
  ⟨next, state.a, rotateLeft state.b 30, state.c, state.d⟩

def State.absorb (state : State) (block : List UInt32) : State :=
  let words := stretch block.toArray 64
  let mixed := (List.range 80).foldl (State.step words) state
  ⟨state.a + mixed.a, state.b + mixed.b, state.c + mixed.c, state.d + mixed.d,
    state.e + mixed.e⟩

def digest (message : Bytes) : Text :=
  let state := (paddedBlocks .highFirst message).foldl State.absorb start
  hexOfWords .highFirst [state.a, state.b, state.c, state.d, state.e]

end LicenseSurvey.Digest.Sha1

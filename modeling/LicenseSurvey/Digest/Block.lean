import LicenseSurvey.Text.Basic

/-! # Digest blocks

The digests of this library read a message in blocks of sixteen 32-bit words. The
message is closed by one set bit, zeros, and its length in bits as 64 bits. The
digests differ in the order of the bytes of a word and in how they mix a block.
-/

namespace LicenseSurvey.Digest

inductive ByteOrder where
  | highFirst
  | lowFirst
deriving DecidableEq, Repr

def wordOfBytes (first second third fourth : UInt8) : UInt32 :=
  (first.toUInt32 <<< 24) ||| (second.toUInt32 <<< 16) ||| (third.toUInt32 <<< 8) |||
    fourth.toUInt32

def wordsOfBytes (order : ByteOrder) : Bytes → List UInt32
  | first :: second :: third :: fourth :: rest =>
      let word :=
        match order with
        | .highFirst => wordOfBytes first second third fourth
        | .lowFirst => wordOfBytes fourth third second first
      word :: wordsOfBytes order rest
  | _ => []

def bytesOfWord (order : ByteOrder) (word : UInt32) : Bytes :=
  let highFirst :=
    [(word >>> 24).toUInt8, (word >>> 16).toUInt8, (word >>> 8).toUInt8, word.toUInt8]
  match order with
  | .highFirst => highFirst
  | .lowFirst => highFirst.reverse

def lengthWords (order : ByteOrder) (count : Nat) : List UInt32 :=
  let bits := count * 8
  let high := UInt32.ofNat (bits / 0x100000000)
  let low := UInt32.ofNat bits
  match order with
  | .highFirst => [high, low]
  | .lowFirst => [low, high]

def zeroCount (count : Nat) : Nat := (119 - count % 64) % 64

/-- The set bit, the zeros and the length complete the last block. -/
theorem zeroCount_completes (count : Nat) : (count + 1 + zeroCount count + 8) % 64 = 0 := by
  unfold zeroCount
  omega

def paddedWords (order : ByteOrder) (message : Bytes) : List UInt32 :=
  wordsOfBytes order (message ++ 0x80 :: List.replicate (zeroCount message.length) 0) ++
    lengthWords order message.length

def blocks : (count : Nat) → List UInt32 → List (List UInt32)
  | 0, _ => []
  | count + 1, words => words.take 16 :: blocks count (words.drop 16)

def paddedBlocks (order : ByteOrder) (message : Bytes) : List (List UInt32) :=
  let words := paddedWords order message
  blocks (words.length / 16) words

def rotateLeft (word count : UInt32) : UInt32 :=
  (word <<< count) ||| (word >>> (32 - count))

def wordAt (words : Array UInt32) (place : Nat) : UInt32 := words.getD place 0

def hexDigit (value : UInt8) : Char := Nat.digitChar value.toNat

def hexOfBytes (bytes : Bytes) : Text :=
  bytes.flatMap fun byte => [hexDigit (byte / 16), hexDigit (byte % 16)]

def hexOfWords (order : ByteOrder) (words : List UInt32) : Text :=
  hexOfBytes (words.flatMap (bytesOfWord order))

end LicenseSurvey.Digest

/-!
# SHA-256

The secure hash of FIPS 180-4, on lists of octets.
-/

namespace Reconciler.Sha256

/-- The eight words that the hash starts from. -/
def initialWords : List UInt32 :=
  [0x6a09e667, 0xbb67ae85, 0x3c6ef372, 0xa54ff53a, 0x510e527f, 0x9b05688c, 0x1f83d9ab, 0x5be0cd19]

/-- The words that are added in the rounds, one for each. -/
def roundWords : List UInt32 :=
  [0x428a2f98, 0x71374491, 0xb5c0fbcf, 0xe9b5dba5, 0x3956c25b, 0x59f111f1, 0x923f82a4, 0xab1c5ed5,
    0xd807aa98, 0x12835b01, 0x243185be, 0x550c7dc3, 0x72be5d74, 0x80deb1fe, 0x9bdc06a7, 0xc19bf174,
    0xe49b69c1, 0xefbe4786, 0x0fc19dc6, 0x240ca1cc, 0x2de92c6f, 0x4a7484aa, 0x5cb0a9dc, 0x76f988da,
    0x983e5152, 0xa831c66d, 0xb00327c8, 0xbf597fc7, 0xc6e00bf3, 0xd5a79147, 0x06ca6351, 0x14292967,
    0x27b70a85, 0x2e1b2138, 0x4d2c6dfc, 0x53380d13, 0x650a7354, 0x766a0abb, 0x81c2c92e, 0x92722c85,
    0xa2bfe8a1, 0xa81a664b, 0xc24b8b70, 0xc76c51a3, 0xd192e819, 0xd6990624, 0xf40e3585, 0x106aa070,
    0x19a4c116, 0x1e376c08, 0x2748774c, 0x34b0bcb5, 0x391c0cb3, 0x4ed8aa4a, 0x5b9cca4f, 0x682e6ff3,
    0x748f82ee, 0x78a5636f, 0x84c87814, 0x8cc70208, 0x90befffa, 0xa4506ceb, 0xbef9a3f7, 0xc67178f2]

/-- A word turned right by a number of bits. -/
def rotate (word : UInt32) (bits : UInt32) : UInt32 :=
  (word >>> bits) ||| (word <<< (32 - bits))

/-- Mixes a word of the schedule, early part. -/
def smallSigma0 (word : UInt32) : UInt32 :=
  rotate word 7 ^^^ rotate word 18 ^^^ (word >>> 3)

/-- Mixes a word of the schedule, late part. -/
def smallSigma1 (word : UInt32) : UInt32 :=
  rotate word 17 ^^^ rotate word 19 ^^^ (word >>> 10)

/-- Mixes the first word of a state. -/
def bigSigma0 (word : UInt32) : UInt32 :=
  rotate word 2 ^^^ rotate word 13 ^^^ rotate word 22

/-- Mixes the fifth word of a state. -/
def bigSigma1 (word : UInt32) : UInt32 :=
  rotate word 6 ^^^ rotate word 11 ^^^ rotate word 25

/-- The eight words between two rounds. -/
structure State where
  a : UInt32
  b : UInt32
  c : UInt32
  d : UInt32
  e : UInt32
  f : UInt32
  g : UInt32
  h : UInt32
deriving DecidableEq, Inhabited

namespace State

/-- One round, with a word of the schedule and the word of the round. -/
def round (state : State) (scheduled constant : UInt32) : State :=
  let choice := (state.e &&& state.f) ^^^ (~~~state.e &&& state.g)
  let majority := (state.a &&& state.b) ^^^ (state.a &&& state.c) ^^^ (state.b &&& state.c)
  let first := state.h + bigSigma1 state.e + choice + constant + scheduled
  let second := bigSigma0 state.a + majority
  ⟨first + second, state.a, state.b, state.c, state.d + first, state.e, state.f, state.g⟩

/-- The sums of the words of two states. -/
def add (first second : State) : State :=
  ⟨first.a + second.a, first.b + second.b, first.c + second.c, first.d + second.d,
    first.e + second.e, first.f + second.f, first.g + second.g, first.h + second.h⟩

/-- The state before the first block. -/
def initial : State :=
  match initialWords with
  | [a, b, c, d, e, f, g, h] => ⟨a, b, c, d, e, f, g, h⟩
  | _ => default

end State

/-- The word that follows sixteen words of the schedule, given last first. -/
def nextWord (latest : List UInt32) : UInt32 :=
  smallSigma1 (latest.getD 1 0) + latest.getD 6 0 + smallSigma0 (latest.getD 14 0) +
    latest.getD 15 0

/-- The schedule with a number of further words; words are given and answered last first. -/
def extend : Nat → List UInt32 → List UInt32
  | 0, latest => latest
  | more + 1, latest => extend more (nextWord latest :: latest)

/-- The state after a block of sixteen words. -/
def compress (state : State) (block : List UInt32) : State :=
  let schedule := (extend 48 block.reverse).reverse
  let mixed := (schedule.zip roundWords).foldl
    (fun state (scheduled, constant) => state.round scheduled constant) state
  state.add mixed

/-- A word of four octets, the most significant first. -/
def wordOf (octets : List UInt8) : UInt32 :=
  octets.foldl (fun word octet => (word <<< 8) ||| octet.toUInt32) 0

/-- The octets of a number, the most significant first. -/
def octetsOf (width number : Nat) : List UInt8 :=
  (List.range width).map fun place => (number / Nat.pow 256 (width - 1 - place) % 256).toUInt8

/-- The octets of a message, filled up to whole blocks of 64. -/
def pad (message : List UInt8) : List UInt8 :=
  let zeros := (119 - message.length % 64) % 64
  message ++ 0x80 :: List.replicate zeros 0 ++ octetsOf 8 (message.length * 8)

/-- A list cut into a number of pieces of one size. -/
def chunks {α : Type} (size : Nat) : Nat → List α → List (List α)
  | 0, _ => []
  | count + 1, values => values.take size :: chunks size count (values.drop size)

/-- The state after a message. -/
def hash (message : List UInt8) : State :=
  let padded := pad message
  let blocks := chunks 64 (padded.length / 64) padded
  blocks.foldl (fun state block => compress state ((chunks 4 16 block).map wordOf)) .initial

/-- The first eight octets of the hash of a text, as a number. -/
def leading (text : String) : UInt64 :=
  let state := hash text.toUTF8.toList
  (state.a.toUInt64 <<< 32) ||| state.b.toUInt64

end Reconciler.Sha256

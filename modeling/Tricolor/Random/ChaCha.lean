import Tricolor.Random.Source

/-!
# The ChaCha8 generator

A stream of 32-bit words: the ChaCha block function with eight rounds, applied
to a key and to a block number that counts up from zero.  A 64-bit seed is
stretched to a key by a congruential generator whose output is scrambled.
-/

namespace Tricolor

/-- The working state of the block function. -/
abbrev ChaChaState := Vector UInt32 16

namespace ChaChaState

def rotateLeft (word : UInt32) (amount : UInt32) : UInt32 :=
  (word <<< amount) ||| (word >>> (32 - amount))

def quarterRound (a b c d : Fin 16) (state : ChaChaState) : ChaChaState :=
  let mix (target addend mixed : Fin 16) (amount : UInt32) (state : ChaChaState) :=
    let state := state.set target (state[target] + state[addend])
    state.set mixed (rotateLeft (state[mixed] ^^^ state[target]) amount)
  mix c d b 7 (mix a b d 8 (mix c d b 12 (mix a b d 16 state)))

/-- One round over the columns and one over the diagonals. -/
def doubleRound (state : ChaChaState) : ChaChaState :=
  let columns :=
    quarterRound 3 7 11 15 (quarterRound 2 6 10 14 (quarterRound 1 5 9 13
      (quarterRound 0 4 8 12 state)))
  quarterRound 3 4 9 14 (quarterRound 2 7 8 13 (quarterRound 1 6 11 12
    (quarterRound 0 5 10 15 columns)))

def eightRounds (state : ChaChaState) : ChaChaState :=
  doubleRound (doubleRound (doubleRound (doubleRound state)))

end ChaChaState

/-- The generator: its key, the number of the next block, the current block,
and how many words of it have been used up. -/
structure ChaCha8 where
  key : Vector UInt32 8
  counter : UInt64 := 0
  block : ChaChaState := Vector.replicate 16 0
  used : Nat := 16

namespace ChaCha8

/-- The input of the block function: four constants, the key, the block
number, and a stream number that is always zero. -/
def inputBlock (key : Vector UInt32 8) (counter : UInt64) : ChaChaState :=
  #v[0x61707865, 0x3320646e, 0x79622d32, 0x6b206574,
    key[0], key[1], key[2], key[3], key[4], key[5], key[6], key[7],
    counter.toUInt32, (counter >>> 32).toUInt32, 0, 0]

def outputBlock (key : Vector UInt32 8) (counter : UInt64) : ChaChaState :=
  let input := inputBlock key counter
  (input.eightRounds).zipWith (· + ·) input

/-- One step of the generator that stretches seeds. -/
def nextSeedState (state : UInt64) : UInt64 :=
  state * 6364136223846793005 + 11634580027462260723

/-- The scrambled output of a state: folded to 32 bits and rotated right by
its top five bits. -/
def seedWord (state : UInt64) : UInt32 :=
  let folded := (((state >>> 18) ^^^ state) >>> 27).toUInt32
  let amount := (state >>> 59).toUInt32
  (folded >>> amount) ||| (folded <<< ((32 - amount) % 32))

def seedStates (seed : UInt64) : Vector UInt64 8 :=
  let s0 := nextSeedState seed
  let s1 := nextSeedState s0
  let s2 := nextSeedState s1
  let s3 := nextSeedState s2
  let s4 := nextSeedState s3
  let s5 := nextSeedState s4
  let s6 := nextSeedState s5
  let s7 := nextSeedState s6
  #v[s0, s1, s2, s3, s4, s5, s6, s7]

def ofSeed (seed : UInt64) : ChaCha8 :=
  { key := (seedStates seed).map seedWord }

def nextWord (generator : ChaCha8) : UInt32 × ChaCha8 :=
  if available : generator.used < 16 then
    (generator.block[generator.used], { generator with used := generator.used + 1 })
  else
    let block := outputBlock generator.key generator.counter
    (block[0], { generator with block, counter := generator.counter + 1, used := 1 })

/-- Scales a word to the range below the bound.  Where the fraction that is cut
off may be short of the next number by the scaled value of one more word, that
word is drawn and decides. -/
def below (bound : Nat) (generator : ChaCha8) : Nat × ChaCha8 :=
  let (word, generator) := generator.nextWord
  let product := word.toNat * bound
  let quotient := product / UInt32.size
  let fraction := product % UInt32.size
  if UInt32.size - bound < fraction then
    let (correction, generator) := generator.nextWord
    let carries := UInt32.size ≤ fraction + correction.toNat * bound / UInt32.size
    (if carries then quotient + 1 else quotient, generator)
  else (quotient, generator)

/-- Draws a 64-bit number, low half first, and compares it with 2 ^ 63. -/
def coin (generator : ChaCha8) : Bool × ChaCha8 :=
  let (_, generator) := generator.nextWord
  let (high, generator) := generator.nextWord
  (high < 0x80000000, generator)

instance : DrawSource ChaCha8 where
  below := below
  coin := coin

end ChaCha8

end Tricolor

import SlotOutcome.Random.Source

/-!
# The seeded generator

A seed of 64 bits fixes a whole sequence of draws: it is stretched to a key of 256 bits, the key
runs the ChaCha stream cipher with eight rounds, and the words of the key stream are mapped to
the ranges asked for.

## Main definitions

* `ChaCha.block`, `ChaCha.word`: the key stream of a key.
* `Seeded`: a seed and the number of words taken from its key stream.

## Implementation notes

A word is computed from its place in the stream whenever it is asked for. No block is kept.
-/

namespace SlotOutcome

namespace ChaCha

/-- The sixteen words that a block is computed from. -/
abbrev Block := Vector UInt32 16

/-- Rotation of a word to the left. -/
def rotateLeft (x : UInt32) (by' : UInt32) : UInt32 := (x <<< by') ||| (x >>> (32 - by'))

/-- The quarter round on four words of a block. -/
def quarterRound (s : Block) (i j k l : Fin 16) : Block :=
  let a := s[i] + s[j]
  let d := rotateLeft (s[l] ^^^ a) 16
  let c := s[k] + d
  let b := rotateLeft (s[j] ^^^ c) 12
  let a := a + b
  let d := rotateLeft (d ^^^ a) 8
  let c := c + d
  let b := rotateLeft (b ^^^ c) 7
  (((s.set i a).set j b).set k c).set l d

/-- Two rounds: the four columns, then the four diagonals. -/
def doubleRound (s : Block) : Block :=
  let s := quarterRound s 0 4 8 12
  let s := quarterRound s 1 5 9 13
  let s := quarterRound s 2 6 10 14
  let s := quarterRound s 3 7 11 15
  let s := quarterRound s 0 5 10 15
  let s := quarterRound s 1 6 11 12
  let s := quarterRound s 2 7 8 13
  quarterRound s 3 4 9 14

/-- The words before the rounds: four constants, the key, the number of the block, and a stream
number that is always zero. -/
def initial (key : Vector UInt32 8) (number : UInt64) : Block :=
  #v[0x61707865, 0x3320646e, 0x79622d32, 0x6b206574,
    key[0], key[1], key[2], key[3], key[4], key[5], key[6], key[7],
    number.toUInt32, (number >>> 32).toUInt32, 0, 0]

/-- A block of the key stream: the words after eight rounds, added to those before. -/
def block (key : Vector UInt32 8) (number : UInt64) : Block :=
  let start := initial key number
  Vector.zipWith (· + ·) start
    (doubleRound (doubleRound (doubleRound (doubleRound start))))

/-- A word of 64 bits of the key stream; each is two words of a block, the low one first. -/
def word (key : Vector UInt32 8) (place : Nat) : UInt64 :=
  let b := block key (UInt64.ofNat (place / 8))
  let low : Fin 16 := ⟨2 * (place % 8), by omega⟩
  let high : Fin 16 := ⟨2 * (place % 8) + 1, by omega⟩
  b[low].toUInt64 ||| (b[high].toUInt64 <<< 32)

end ChaCha

/-- A seed and the number of words already taken from its key stream. -/
structure Seeded where
  seed : UInt64
  taken : Nat
deriving DecidableEq, Repr

namespace Seeded

/-- The generator of a seed. -/
def ofSeed (seed : UInt64) : Seeded := ⟨seed, 0⟩

/-- The generator after so many words were thrown away. -/
def skip (g : Seeded) (count : Nat) : Seeded := { g with taken := g.taken + count }

/-- One step of the generator that stretches the seed. -/
def stretch (state : UInt64) : UInt64 := state * 6364136223846793005 + 11634580027462260723

/-- The key word read off a state of the stretching generator: the top bits choose a rotation
of the others. -/
def keyWord (state : UInt64) : UInt32 :=
  let x := (((state >>> 18) ^^^ state) >>> 27).toUInt32
  let by' := (state >>> 59).toUInt32
  (x >>> by') ||| (x <<< ((32 - by') % 32))

/-- The key of a seed. -/
def key (seed : UInt64) : Vector UInt32 8 :=
  let s0 := stretch seed
  let s1 := stretch s0
  let s2 := stretch s1
  let s3 := stretch s2
  let s4 := stretch s3
  let s5 := stretch s4
  let s6 := stretch s5
  let s7 := stretch s6
  #v[keyWord s0, keyWord s1, keyWord s2, keyWord s3, keyWord s4, keyWord s5, keyWord s6,
    keyWord s7]

/-- The word at a place of the key stream of a seed. -/
def wordAt (seed : UInt64) (place : Nat) : Nat := (ChaCha.word (key seed) place).toNat

/-- The next draw: the high half of a word times `n`. When the low half falls into the last `n`
values, a second word decides whether it carries. -/
def next (n : Nat) (g : Seeded) : Except DrawError Nat × Seeded :=
  if n = 0 then (.error .emptyRange, g)
  else
    let product := wordAt g.seed g.taken * n
    let high := product / UInt64.size
    let low := product % UInt64.size
    if UInt64.size - n < low then
      let carried := (low + wordAt g.seed (g.taken + 1) * n / UInt64.size) / UInt64.size
      (.ok (high + carried), ⟨g.seed, g.taken + 2⟩)
    else (.ok high, ⟨g.seed, g.taken + 1⟩)

/-- A draw takes words and leaves the seed. -/
theorem seed_next (g : Seeded) (n : Nat) : (g.next n).2.seed = g.seed := by
  unfold next
  split
  · rfl
  · dsimp only
    split <;> rfl

end Seeded

instance : Generator Seeded where
  draw n := Seeded.next n
  Seed := UInt64
  ofSeed := Seeded.ofSeed
  seed := Seeded.seed
  skip := Seeded.skip
  seed_ofSeed _ := rfl
  seed_draw := Seeded.seed_next
  seed_skip _ _ := rfl

/-- The sources that can be named in a request: a script, a seed, or a recording of a source. -/
inductive Source where
  | script (script : Script)
  | seeded (generator : Seeded)
  | recording (inner : Source) (draws : List Nat)

namespace Source

/-- The next draw of a source. -/
def next (n : Nat) : Source → Except DrawError Nat × Source
  | script s => let (r, s) := s.next n; (r, script s)
  | seeded g => let (r, g) := g.next n; (r, seeded g)
  | recording inner draws =>
    match inner.next n with
    | (.ok value, inner) => (.ok value, recording inner (draws ++ [value]))
    | (.error e, inner) => (.error e, recording inner draws)

/-- A recording turned into the script of its draws; other sources stay. -/
def intoScript : Source → Source
  | recording _ draws => script (.ofDraws draws)
  | source => source

/-- A recording turned back into the source that it wraps; other sources stay. -/
def intoInner : Source → Source
  | recording inner _ => inner
  | source => source

end Source

instance : RandomSource Source where
  draw n := Source.next n

end SlotOutcome

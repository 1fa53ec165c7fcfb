/-!
# The ChaCha keystream

An endless stream of 32-bit words from a key of eight words: block after block of sixteen words,
each mixed from four constants, the key and the number of the block by twelve rounds.
-/

namespace Wilderness

/-- The sixteen words of a block under work. -/
abbrev Block := Vector UInt32 16

namespace Block

/-- The bits of a word moved up, those that leave coming back at the bottom. -/
def rotateLeft (word : UInt32) (count : UInt32) : UInt32 :=
  (word <<< count) ||| (word >>> (32 - count))

/-- Four words mixed by additions, exclusive ors and rotations. -/
def quarterRound (block : Block) (a b c d : Fin 16) : Block :=
  let half (block : Block) (first second : UInt32) : Block :=
    let block := block.set a (block[a] + block[b])
    let block := block.set d (rotateLeft (block[d] ^^^ block[a]) first)
    let block := block.set c (block[c] + block[d])
    block.set b (rotateLeft (block[b] ^^^ block[c]) second)
  half (half block 16 12) 8 7

/-- A round down the four columns and a round along the four diagonals. -/
def doubleRound (block : Block) : Block :=
  [(0, 4, 8, 12), (1, 5, 9, 13), (2, 6, 10, 14), (3, 7, 11, 15),
    (0, 5, 10, 15), (1, 6, 11, 12), (2, 7, 8, 13), (3, 4, 9, 14)].foldl
    (fun block (a, b, c, d) => block.quarterRound a b c d) block

/-- The block before the first round. -/
def start (key : Vector UInt32 8) (number : UInt64) : Block := #v[
    0x61707865, 0x3320646e, 0x79622d32, 0x6b206574,
    key[0], key[1], key[2], key[3], key[4], key[5], key[6], key[7],
    number.toUInt32, (number >>> 32).toUInt32, 0, 0]

/-- The words that a block adds to the stream: the start mixed by six double rounds, and the start
added once more. -/
def words (key : Vector UInt32 8) (number : UInt64) : List UInt32 :=
  let first := start key number
  let mixed := (List.range 6).foldl (fun block _ => block.doubleRound) first
  (mixed.zipWith (· + ·) first).toList

end Block

/-- A keystream from a point on. -/
structure Keystream where
  key : Vector UInt32 8
  /-- The number of the block that comes after the pending words. -/
  block : UInt64 := 0
  /-- Words of the block before that are still to come. -/
  pending : List UInt32 := []

namespace Keystream

/-- The next word. -/
def next (stream : Keystream) : UInt32 × Keystream :=
  match stream.pending with
  | word :: pending => (word, { stream with pending })
  | [] =>
    match Block.words stream.key stream.block with
    | word :: pending => (word, { stream with block := stream.block + 1, pending })
    | [] => (0, stream)

/-- The state after a step of the generator that spreads a seed over a key. -/
def stepSeed (state : UInt64) : UInt64 :=
  state * 6364136223846793005 + 11634580027462260723

/-- The word that a state gives: its upper half folded onto itself and turned by its top bits. -/
def seedWord (state : UInt64) : UInt32 :=
  let folded := (((state >>> 18) ^^^ state) >>> 27).toUInt32
  let turn := (state >>> 59).toUInt32
  (folded >>> turn) ||| (folded <<< ((32 - turn) % 32))

/-- The keystream of a seed. -/
def ofSeed (seed : UInt64) : Keystream where
  key :=
    let state (steps : Nat) : UInt64 := (List.range steps).foldl (fun state _ => stepSeed state) seed
    Vector.ofFn fun i : Fin 8 => seedWord (state (i + 1))

end Keystream

end Wilderness

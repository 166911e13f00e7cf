import SimBus.Random.Source
/-!
The stream cipher ChaCha with eight rounds, used as a generator: its output is
a stream of 32-bit words that a seed determines. A block of sixteen words comes
from a key, a block counter and fixed constants.
-/

namespace SimBus.Random

/-- Four words side by side; a block is four rows. -/
structure Row where
  w0 : UInt32
  w1 : UInt32
  w2 : UInt32
  w3 : UInt32
  deriving DecidableEq

namespace Row

def map₂ (f : UInt32 → UInt32 → UInt32) (a b : Row) : Row :=
  ⟨f a.w0 b.w0, f a.w1 b.w1, f a.w2 b.w2, f a.w3 b.w3⟩

def add : Row → Row → Row := map₂ (· + ·)

def xor : Row → Row → Row := map₂ (· ^^^ ·)

def rotateBits (n : UInt32) (a : Row) : Row :=
  let turn (w : UInt32) := (w <<< n) ||| (w >>> (32 - n))
  ⟨turn a.w0, turn a.w1, turn a.w2, turn a.w3⟩

def shift (a : Row) : Row := ⟨a.w1, a.w2, a.w3, a.w0⟩

def words (a : Row) : List UInt32 := [a.w0, a.w1, a.w2, a.w3]

end Row

structure Block where
  a : Row
  b : Row
  c : Row
  d : Row
  deriving DecidableEq

namespace Block

/-- The quarter round of the cipher on all four columns at once. -/
def columnRound (x : Block) : Block :=
  let a := x.a.add x.b
  let d := (x.d.xor a).rotateBits 16
  let c := x.c.add d
  let b := (x.b.xor c).rotateBits 12
  let a := a.add b
  let d := (d.xor a).rotateBits 8
  let c := c.add d
  let b := (b.xor c).rotateBits 7
  ⟨a, b, c, d⟩

/-- The same on the four diagonals. -/
def diagonalRound (x : Block) : Block :=
  let y := columnRound ⟨x.a, x.b.shift, x.c.shift.shift, x.d.shift.shift.shift⟩
  ⟨y.a, y.b.shift.shift.shift, y.c.shift.shift, y.d.shift⟩

def rounds : (pairs : Nat) → Block → Block
  | 0, x => x
  | n + 1, x => rounds n x.columnRound.diagonalRound

def words (x : Block) : List UInt32 := x.a.words ++ x.b.words ++ x.c.words ++ x.d.words

end Block

/-- The cipher's constants, the text `expand 32-byte k`. -/
def constants : Row := ⟨0x61707865, 0x3320646e, 0x79622d32, 0x6b206574⟩

structure Stream where
  key : Row × Row
  counter : UInt64
  pending : List UInt32
  deriving DecidableEq

namespace Stream

def block (key : Row × Row) (counter : UInt64) : List UInt32 :=
  let start : Block :=
    ⟨constants, key.1, key.2, ⟨counter.toUInt32, (counter >>> 32).toUInt32, 0, 0⟩⟩
  let mixed := start.rounds 4
  Block.words ⟨mixed.a.add start.a, mixed.b.add start.b, mixed.c.add start.c, mixed.d.add start.d⟩

def next32 (s : Stream) : UInt32 × Stream :=
  match s.pending with
  | w :: rest => (w, { s with pending := rest })
  | [] =>
      match block s.key s.counter with
      | w :: rest => (w, { s with counter := s.counter + 1, pending := rest })
      | [] => (0, s)

/-- Two words of the stream, the low one first. -/
def next64 (s : Stream) : UInt64 × Stream :=
  let (low, s) := s.next32
  let (high, s) := s.next32
  (low.toUInt64 ||| (high.toUInt64 <<< 32), s)

/-- One step of the generator that stretches a seed to a key: a linear
congruence, whose state is scrambled by a shift and a rotation. -/
def stretch (state : UInt64) : UInt32 × UInt64 :=
  let state := state * 6364136223846793005 + 11634580027462260723
  let x := (((state >>> 18) ^^^ state) >>> 27).toUInt32
  let turn := (state >>> 59).toUInt32
  ((x >>> turn) ||| (x <<< ((32 - turn) % 32)), state)

def stretchRow (state : UInt64) : Row × UInt64 :=
  let (w0, state) := stretch state
  let (w1, state) := stretch state
  let (w2, state) := stretch state
  let (w3, state) := stretch state
  (⟨w0, w1, w2, w3⟩, state)

def ofSeed (seed : UInt64) : Stream :=
  let (low, state) := stretchRow seed
  let (high, _) := stretchRow state
  ⟨(low, high), 0, []⟩

/-- Fewer than half of all words are ever refused, so the bound on refusals is
out of reach. -/
def generator : WordGenerator Stream where
  next32 := next32
  next64 := next64
  patience _ := 1024

end Stream

end SimBus.Random

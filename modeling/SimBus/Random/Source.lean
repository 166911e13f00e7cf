import SimBus.Random.Draws
/-!
Sources of random numbers, and running a computation on one. A generator
yields random words; an index below `n` is taken from a word by scaling it to
`n` equal parts, after refusing the words that would make the parts unequal.
-/

namespace SimBus

structure RandomSource (σ : Type) where
  index : DrawWidth → (last : Nat) → σ → Fin (last + 1) × σ
  word : σ → UInt64 × σ

/-- Walks through a computation with the answers of a source. -/
def Draws.run {α σ : Type} (source : RandomSource σ) : Draws α → σ → α × σ
  | .done result, s => (result, s)
  | .index width last next, s =>
      match source.index width last s with
      | (i, s) => (next i).run source s
  | .word next, s =>
      match source.word s with
      | (w, s) => (next w).run source s

/-- Yields random words of either size. `patience` bounds how often it is asked
again when its words are refused; the last word is taken whatever it is. -/
structure WordGenerator (σ : Type) where
  next32 : σ → UInt32 × σ
  next64 : σ → UInt64 × σ
  patience : σ → Nat

namespace WordGenerator

variable {σ : Type}

def bits : DrawWidth → Nat
  | .bits32 => 32
  | .bits64 => 64

def draw (g : WordGenerator σ) (width : DrawWidth) (s : σ) : Fin (Nat.pow 2 (bits width)) × σ :=
  match width with
  | .bits32 => let (w, s) := g.next32 s; (⟨w.toNat, w.toNat_lt⟩, s)
  | .bits64 => let (w, s) := g.next64 s; (⟨w.toNat, w.toNat_lt⟩, s)

/-- The greatest low part of a scaled word that is accepted: one less than the
multiple of `count` by the power of two that still fits the width. -/
def zone (width : DrawWidth) (count : Nat) : Nat :=
  count * Nat.pow 2 (bits width - 1 - Nat.log2 count) - 1

/-- Scales words until one is accepted; the high part is the index. -/
def drawIndex (g : WordGenerator σ) (width : DrawWidth) (last : Nat) :
    (tries : Nat) → σ → Fin (last + 1) × σ
  | tries, s =>
      let (w, s) := g.draw width s
      let scaled := w.val * (last + 1)
      if scaled % Nat.pow 2 (bits width) ≤ zone width (last + 1) then
        (⟨scaled / Nat.pow 2 (bits width), Nat.div_lt_of_lt_mul
          (Nat.mul_lt_mul_of_pos_right w.isLt (Nat.succ_pos last))⟩, s)
      else match tries with
        | 0 => (⟨scaled / Nat.pow 2 (bits width), Nat.div_lt_of_lt_mul
            (Nat.mul_lt_mul_of_pos_right w.isLt (Nat.succ_pos last))⟩, s)
        | tries + 1 => drawIndex g width last tries s

def toSource (g : WordGenerator σ) : RandomSource σ where
  index width last s := g.drawIndex width last (g.patience s) s
  word := g.next64

/-- The words of a list and then zeros. A 32-bit draw uses up a whole word. -/
def script : WordGenerator (List UInt64) where
  next32
    | [] => (0, [])
    | w :: rest => (w.toUInt32, rest)
  next64
    | [] => (0, [])
    | w :: rest => (w, rest)
  patience := List.length

end WordGenerator

end SimBus

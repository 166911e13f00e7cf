/-!
Computations that may ask for random numbers. Such a computation is a tree: it
either has its result, or asks a question and goes on with the answer. What it
can do with every random source is the set of its branches; what it does with
one source is a walk through the tree.
-/

namespace SimBus

inductive DrawWidth where
  | bits32 | bits64
  deriving DecidableEq, Repr

inductive Draws (α : Type) where
  | done (result : α)
  /-- Asks for a number from `0` to `last`, all equally likely. -/
  | index (width : DrawWidth) (last : Nat) (next : Fin (last + 1) → Draws α)
  | word (next : UInt64 → Draws α)

namespace Draws

variable {α β : Type}

def bind : Draws α → (α → Draws β) → Draws β
  | done result, f => f result
  | index width last next, f => index width last fun i => bind (next i) f
  | word next, f => word fun w => bind (next w) f

instance : Monad Draws where
  pure := done
  bind := bind

def randomIndex (width : DrawWidth) (last : Nat) : Draws (Fin (last + 1)) :=
  index width last done

def randomWord : Draws UInt64 := word done

/-- Shuffles the first `count` items, which are all of them: a random one
changes places with the last, and the ones before the last place are shuffled
in turn. A single item draws nothing. -/
def shuffleFirst : (count : Nat) → List α → Draws (List α)
  | count + 2, items => do
      let i ← randomIndex .bits32 (count + 1)
      match items[i.val]?, items.getLast? with
      | some picked, some last =>
          let others ← shuffleFirst (count + 1) (items.set i.val last).dropLast
          pure (others ++ [picked])
      | _, _ => pure items
  | _, items => pure items

def shuffle (items : List α) : Draws (List α) := shuffleFirst items.length items

end Draws

end SimBus

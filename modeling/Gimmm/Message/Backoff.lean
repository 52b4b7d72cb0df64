/-
`ExponentialBackoff`: the delay before the next retry.
-/
import Mathlib.Algebra.Group.Int.Defs
import Mathlib.Algebra.Group.Nat.Defs
import Mathlib.Data.Int.Basic

namespace Gimmm

/-- `NO_MAX_RETRY`. -/
def noMaxRetry : Int := -1

/-- What `next()` cannot compute itself: the random part, drawn from `[100, 1000]`, and the int
that an overflow of its 32-bit arithmetic leaves behind. -/
structure Draw where
  delta : Fin 901
  overflow : Int

instance : Inhabited Draw := ⟨⟨0, 0⟩⟩

def Draw.randomDelta (d : Draw) : Int := 100 + d.delta

structure ExponentialBackoff where
  retry : Int
  seedVal : Int
  maxRetry : Int

namespace ExponentialBackoff

/-- `ExponentialBackoff(max_retry)`. -/
def new (maxRetry : Int) : ExponentialBackoff := ⟨0, 2, maxRetry⟩

/-- `reset()`. -/
def reset (b : ExponentialBackoff) : ExponentialBackoff := { b with retry := 1, seedVal := 2 }

/-- `int r = 0.5 * (pow(2, seedVal) - 1)`, before the conversion to int. -/
def halfPower (seedVal : Int) : Int := (2 ^ seedVal.toNat - 1) / 2

/-- `next()`: counts a retry, starts over after `maxRetry` of them, and returns
`r * 1000 + random_delta`. -/
def next (b : ExponentialBackoff) (d : Draw) : Int × ExponentialBackoff :=
  let retry := b.retry + 1
  let b := if b.maxRetry ≠ noMaxRetry ∧ retry > b.maxRetry then { b with retry := 0, seedVal := 2 }
    else { b with retry := retry }
  let next := halfPower b.seedVal * 1000 + d.randomDelta
  -- past the largest int the multiplication, or before it the conversion of `r`, overflows
  (if next ≤ 2 ^ 31 - 1 then next else d.overflow, { b with seedVal := b.seedVal + 1 })

end ExponentialBackoff

end Gimmm

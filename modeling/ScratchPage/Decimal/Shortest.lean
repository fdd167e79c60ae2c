import ScratchPage.Decimal.Basic

/-!
# The shortest decimal of a double

The decimal with the fewest digits that reads back as the double, and among those the nearest. For
each number of digits the two neighbours of the value on that grid are tried, so the first grid with
a hit is the coarsest one. The exact expansion, which always reads back, closes the search.
-/

namespace ScratchPage.Decimal
set_option autoImplicit false

/-- What to take when two shortest decimals are equally near. -/
inductive Tie where
  | up
  | even
deriving DecidableEq, Repr

/-- The same magnitude with trailing zeros moved into the exponent, at most `fuel` of them. -/
def strip : Nat → Decimal → Decimal
  | 0, d => d
  | fuel + 1, d =>
    if d.digits ≠ 0 ∧ d.digits % 10 = 0 then strip fuel ⟨d.digits / 10, d.exponent + 1⟩ else d

/-- The same magnitude without trailing zeros. -/
def normalize (d : Decimal) : Decimal := strip (digitChars d.digits).length d

/-- The place of the first digit of `num / den`: the exponent of ten of its leading digit. The ratio
is scaled up first so that its integer part is not zero. -/
def leadingPlace (num den : Nat) : Int :=
  ((digitChars (num * Nat.pow 10 330 / den)).length : Int) - 331

/-- The neighbour of `num / den` with `count` digits that reads back as `bits`. -/
def onGrid (tie : Tie) (num den bits count : Nat) : Option Decimal :=
  let place := leadingPlace num den - count + 1
  let n := num * Nat.pow 10 (-place).toNat
  let d := den * Nat.pow 10 place.toNat
  let low : Decimal := ⟨n / d, place⟩
  let high : Decimal := ⟨n / d + 1, place⟩
  let lowHits := low.nearestBits == bits
  let highHits := high.nearestBits == bits
  let preferHigh := decide (d < 2 * (n % d)) ||
    (2 * (n % d) == d && (tie == .up || n / d % 2 == 1))
  if lowHits && !(highHits && preferHigh) then some low
  else if highHits then some high
  else none

/-- The exact decimal expansion of a finite double. -/
def exact (f : Float) : Decimal :=
  let e := Binary.exponent f
  ⟨Binary.significand f * Nat.pow 2 e.toNat * Nat.pow 5 (-e).toNat, min e 0⟩

/-- The shortest decimal that reads back as a finite double's magnitude. -/
def shortest (tie : Tie) (f : Float) : Decimal :=
  let bits := Binary.magnitudeBits f
  if bits = 0 then ⟨0, 0⟩
  else
    let grids := (List.range 17).map (· + 1)
    let hit := grids.findSome? fun count =>
      onGrid tie (Binary.numerator f) (Binary.denominator f) bits count
    (hit.getD (exact f)).normalize

end ScratchPage.Decimal

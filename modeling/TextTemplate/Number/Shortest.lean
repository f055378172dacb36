/-! The shortest decimal that stands for a binary fraction: the fewest digits that read back as the
same number, and among those the nearest. -/

namespace TextTemplate

/-- The numbers that round to `value / scale`: those between `low / scale` and `high / scale`, and
the ends too when the interval is closed. -/
structure RoundingInterval where
  low : Nat
  value : Nat
  high : Nat
  scale : Nat
  closed : Bool

namespace RoundingInterval

/-- The interval around `m * 2 ^ q`. Just above a power of two the neighbour below is nearer, and
the interval is narrow on that side. -/
def ofBinary (m : Nat) (q : Int) (narrow : Bool) : RoundingInterval :=
  let up := Nat.pow 2 (q - 2).toNat
  { low := (4 * m - if narrow then 1 else 2) * up
    value := 4 * m * up
    high := (4 * m + 2) * up
    scale := Nat.pow 2 (2 - q).toNat
    closed := m % 2 = 0 }

def decimalLength (n : Nat) : Nat :=
  (Nat.toDigits 10 n).length

/-- The place of the decimal point: the value lies below ten to this power, and not below a tenth
of it. -/
def pointPlace (r : RoundingInterval) : Int :=
  if r.scale ≤ r.value then decimalLength (r.value / r.scale)
  else 1 - (decimalLength (r.scale / r.value) : Int)

/-- The number of units of ten to the `exponent` that comes nearest to the value from inside the
interval. Of two that are equally near, the even one is taken. -/
def nearest? (r : RoundingInterval) (exponent : Int) : Option Nat :=
  let up := Nat.pow 10 (-exponent).toNat
  let unit := r.scale * Nat.pow 10 exponent.toNat
  let value := r.value * up
  let below := value / unit
  let belowIn := if r.closed then r.low * up ≤ below * unit else r.low * up < below * unit
  let aboveIn :=
    if r.closed then (below + 1) * unit ≤ r.high * up else (below + 1) * unit < r.high * up
  let belowGap := value - below * unit
  let aboveGap := (below + 1) * unit - value
  if belowIn ∧ aboveIn then
    if belowGap < aboveGap ∨ (belowGap = aboveGap ∧ below % 2 = 0) then some below
    else some (below + 1)
  else if belowIn then some below
  else if aboveIn then some (below + 1)
  else none

/-- Seventeen digits suffice for every number of double precision. -/
def mostDigits : Nat := 17

def shortest (r : RoundingInterval) : Nat × Int :=
  let place := r.pointPlace
  let attempt (digits : Nat) : Option (Nat × Int) :=
    (r.nearest? (place - digits)).map fun units => (units, place - digits)
  ((List.range' 1 mostDigits).findSome? attempt).getD (0, 0)

end RoundingInterval

end TextTemplate

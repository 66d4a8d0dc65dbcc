/-!
# The shortest decimal of a binary number

A double stands for all reals that round to it. `Binary.shortest` picks, among the decimals in that
interval, one with the fewest digits, and of these the one nearest to the number; a tie goes up. It
looks at the decimals with one digit, with two digits and so on. On the grid of each, only the two
neighbours of the number need to be tested. Everything is computed in exact integers.
-/

namespace ObjectSystem.Decimal

/-- The number `significand * 2 ^ exponent`, where the exponent is that of the last place. -/
structure Binary where
  significand : Nat
  exponent : Int
  deriving DecidableEq, Repr

structure Scaled where
  digits : Nat
  exponent : Int
  deriving DecidableEq, Repr

namespace Binary

/-- The significand of the doubles that are powers of two, the very small ones apart. -/
def leadingBit : Nat := 4503599627370496

def leastExponent : Int := -1074

/-- How far the interval reaches below the number, in quarters of the last place: half a place, and
a quarter where the number is a power of two and the doubles below lie closer. -/
def quartersBelow (b : Binary) : Nat :=
  if b.significand = leadingBit ∧ leastExponent < b.exponent then 1 else 2

def quartersAbove : Nat := 2

/-- The ends of the interval round to the number: they go to an even significand. -/
def endsIncluded (b : Binary) : Bool := b.significand % 2 == 0

def compareQuarters (b : Binary) (d : Scaled) (quarters : Nat) : Ordering :=
  compare (d.digits * Nat.pow 10 d.exponent.toNat * Nat.pow 2 (2 - b.exponent).toNat)
    (quarters * Nat.pow 2 (b.exponent - 2).toNat * Nat.pow 10 (-d.exponent).toNat)

def holds (b : Binary) (d : Scaled) : Bool :=
  let low := b.compareQuarters d (4 * b.significand - b.quartersBelow)
  let high := b.compareQuarters d (4 * b.significand + quartersAbove)
  (low == .gt || low == .eq && b.endsIncluded) && (high == .lt || high == .eq && b.endsIncluded)

def floorAt (b : Binary) (exponent : Int) : Nat :=
  b.significand * Nat.pow 2 b.exponent.toNat * Nat.pow 10 (-exponent).toNat /
    (Nat.pow 2 (-b.exponent).toNat * Nat.pow 10 exponent.toNat)

def isNearerBelow (b : Binary) (below : Scaled) : Bool :=
  b.compareQuarters ⟨2 * below.digits + 1, below.exponent⟩ (8 * b.significand) == .gt

/-- The neighbour of the number on the grid of a power of ten that rounds to the number, if there is
one; of two the nearer, and the upper one if both are as near. -/
def onGrid? (b : Binary) (exponent : Int) : Option Scaled :=
  let below : Scaled := ⟨b.floorAt exponent, exponent⟩
  let above : Scaled := ⟨below.digits + 1, exponent⟩
  if b.holds below && (b.isNearerBelow below || !b.holds above) then some below
  else if b.holds above then some above
  else none

/-- The decimal on the first of the grids, from one power of ten downwards, that has one. -/
def firstOnGrid (b : Binary) : Nat → Int → Scaled
  | 0, exponent => ⟨b.floorAt exponent, exponent⟩
  | fuel + 1, exponent => (b.onGrid? exponent).getD (b.firstOnGrid fuel (exponent - 1))

/-- An exponent that is not below that of the leading digit: ten is more than the third power of
two, and its third power is less than the tenth power of two. -/
def coarsestExponent (b : Binary) : Int :=
  let bits : Int := b.significand.log2 + b.exponent
  max (bits / 3) (bits * 3 / 10) + 1

/-- The shortest decimal that rounds to a positive double. From the coarsest grid it takes fewer
than 40 steps to the leading digit, and 17 digits are always enough. -/
def shortest (b : Binary) : Scaled := b.firstOnGrid 60 b.coarsestExponent

end Binary

end ObjectSystem.Decimal

import ObjectSystem.Decimal.Shortest

/-!
# Writing doubles

The text of a double: its sign, and the digits of the shortest decimal, positionally or with a power
of ten. A `Layout` holds the choices that a format makes.
-/

namespace ObjectSystem.Decimal

structure Layout where
  leastPositional : Int
  /-- The least exponent above those that is written as a power of ten again. -/
  leastScientific : Int
  wholeEnding : String
  exponentMark : String
  nan : String
  infinity : String
  minus : String

inductive Parts where
  | nan
  | infinite (negative : Bool)
  | finite (negative : Bool) (magnitude : Binary)
  deriving DecidableEq, Repr

/-- The parts of a double, from its bits: a sign, eleven bits of exponent, and 52 bits of
significand, with a leading bit that is left out unless the exponent is zero. -/
def Parts.ofBits (bits : UInt64) : Parts :=
  let word := bits.toNat
  let negative := decide (9223372036854775808 ≤ word)
  let exponent := word / Binary.leadingBit % 2048
  let fraction := word % Binary.leadingBit
  if exponent = 2047 then
    if fraction = 0 then .infinite negative else .nan
  else if exponent = 0 then .finite negative ⟨fraction, Binary.leastExponent⟩
  else .finite negative ⟨Binary.leadingBit + fraction, Binary.leastExponent + (exponent - 1)⟩

def zeros (n : Nat) : String := String.ofList (List.replicate n '0')

namespace Layout

def pointed (digits : List Char) (whole : Nat) : String :=
  String.ofList (digits.take whole) ++ "." ++ String.ofList (digits.drop whole)

/-- Writes a decimal positionally: `leading` is the exponent of its first digit. -/
def positional (l : Layout) (digits : List Char) (leading : Int) : String :=
  if leading < 0 then "0." ++ zeros (-leading - 1).toNat ++ String.ofList digits
  else
    let whole := leading.toNat + 1
    if digits.length ≤ whole then
      String.ofList digits ++ zeros (whole - digits.length) ++ l.wholeEnding
    else pointed digits whole

def scientific (l : Layout) (digits : List Char) (leading : Int) : String :=
  let mantissa := if digits.length ≤ 1 then String.ofList digits else pointed digits 1
  mantissa ++ l.exponentMark ++ toString leading

def decimal (l : Layout) (d : Scaled) : String :=
  let digits := Nat.toDigits 10 d.digits
  let leading := d.exponent + digits.length - 1
  if l.leastPositional ≤ leading ∧ leading < l.leastScientific then l.positional digits leading
  else l.scientific digits leading

def magnitude (l : Layout) (b : Binary) : String :=
  if b.significand = 0 then "0" ++ l.wholeEnding else l.decimal b.shortest

/-- Writes a double. Zero keeps its sign, a NaN has none. -/
def write (l : Layout) (x : Float) : String :=
  let signed (negative : Bool) (text : String) := if negative then l.minus ++ text else text
  match Parts.ofBits x.toBits with
  | .nan => l.nan
  | .infinite negative => signed negative l.infinity
  | .finite negative b => signed negative (l.magnitude b)

end Layout

end ObjectSystem.Decimal

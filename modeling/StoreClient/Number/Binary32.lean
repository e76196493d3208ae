/-!
# Single-precision numbers

A number of the binary interchange format of 32 bits, kept as its bits. A finite
magnitude is a whole multiple of `2 ^ -149`, so it is worked with as that
multiple, in natural numbers. The main definition is `nearest`, which rounds any
quotient to the magnitude closest to it.
-/

namespace StoreClient

/-- A single-precision number, by its bits. -/
structure Binary32 where
  /-- The sign, eight bits of exponent and twenty-three of fraction. -/
  bits : UInt32
  deriving DecidableEq, Repr, Inhabited

namespace Binary32

/-- The bits of positive infinity; the bits of every finite magnitude are below. -/
def infinity : Nat := 0x7F800000

/-- The weight of the sign bit, `2 ^ 31`. -/
def signBit : Nat := 0x80000000

/-- The weight of the lowest bit of the exponent, `2 ^ 23`. -/
def exponentBit : Nat := 0x800000

/-- The sign bit is set. -/
def isNegative (x : Binary32) : Bool := signBit ≤ x.bits.toNat

/-- The bits without the sign. -/
def magnitude (x : Binary32) : Nat := x.bits.toNat % signBit

/-- The number with this sign and these bits of magnitude. -/
def ofMagnitude (negative : Bool) (magnitude : Nat) : Binary32 :=
  ⟨UInt32.ofNat (if negative then signBit + magnitude else magnitude)⟩

/-- Not a number: an exponent of all ones with a fraction. -/
def isNaN (x : Binary32) : Bool := infinity < x.magnitude

/-- A canonical value that is not a number. -/
def nan : Binary32 := ⟨0x7FC00000⟩

/-- Numeric equality: the two zeros are equal, and what is not a number equals
nothing. -/
def equal (x y : Binary32) : Bool :=
  !x.isNaN && !y.isNaN && (x.bits == y.bits || (x.magnitude == 0 && y.magnitude == 0))

/-- A finite magnitude as a multiple of `2 ^ -149`. -/
def units (magnitude : Nat) : Nat :=
  let exponent := magnitude / exponentBit
  let fraction := magnitude % exponentBit
  if exponent = 0 then fraction else (exponentBit + fraction) * Nat.pow 2 (exponent - 1)

/-- The quotient rounded to a whole number, with ties to the even neighbour. -/
def roundQuotient (num den : Nat) : Nat :=
  let below := num / den
  let rest := num % den
  if 2 * rest < den || (2 * rest = den && below % 2 = 0) then below else below + 1

/-- The magnitude closest to `num / den`, with ties to the even fraction. A quotient
of `2 ^ (24 + k)` units and more keeps twenty-four bits and drops `k + 1` of them;
rounding up to the next power of two carries into the exponent, and past the
largest finite magnitude the answer is infinity. -/
def nearest (num den : Nat) : Nat :=
  let scaled := num * Nat.pow 2 149
  let dropped := (scaled / den).log2 - 23
  let kept := roundQuotient scaled (den * Nat.pow 2 dropped)
  min (dropped * exponentBit + kept) infinity

end Binary32

end StoreClient

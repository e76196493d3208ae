import StoreClient.Number.Numeral
import StoreClient.Number.Binary32

/-!
# Single-precision numbers in decimal

Reading accepts a sign, digits with an optional point and exponent, and the words
for infinity and not a number in any case; it rounds to the nearest number.
Writing gives the fewest digits that read back as the same number, always
positional.
-/

namespace StoreClient.Binary32

/-- A decimal number `coefficient * 10 ^ exponent`. -/
structure Decimal where
  /-- The digits as a whole number. -/
  coefficient : Nat
  /-- The power of ten that the digits are scaled by. -/
  exponent : Int
  deriving DecidableEq, Repr

/-- Decimal exponents beyond this bound take no further digits. -/
def exponentBound : Nat := 65536

/-- The value of an exponent's digits, which stops growing past the bound. -/
def exponentValue (digits : Bytes) : Nat :=
  digits.foldl (fun n byte => if n < exponentBound then 10 * n + (byte.toNat - 48) else n) 0

/-- The exponent at the end of a number: nothing, or the letter `e`, a sign and
digits. -/
def readExponent? : Bytes → Option Int
  | [] => some 0
  | mark :: rest =>
    if mark = 'e'.toUInt8 || mark = 'E'.toUInt8 then
      let negative := rest.head? = some '-'.toUInt8
      let digits := if negative || rest.head? = some '+'.toUInt8 then rest.drop 1 else rest
      if Numeral.isNumeral digits then
        some (if negative then -(exponentValue digits : Int) else exponentValue digits)
      else none
    else none

/-- A number without its sign: digits, an optional point among or beside them, and
an optional exponent. -/
def readDecimal? (bytes : Bytes) : Option Decimal :=
  let whole := bytes.takeWhile Numeral.isDigit
  let afterWhole := bytes.dropWhile Numeral.isDigit
  let pointed := afterWhole.head? = some '.'.toUInt8
  let fraction := if pointed then (afterWhole.drop 1).takeWhile Numeral.isDigit else []
  let rest := if pointed then (afterWhole.drop 1).dropWhile Numeral.isDigit else afterWhole
  if whole.isEmpty && fraction.isEmpty then none
  else (readExponent? rest).map fun exponent =>
    ⟨Numeral.valueByHalves (whole ++ fraction), exponent - fraction.length⟩

/-- The magnitude closest to a decimal number. With more than forty zeros at its end
it is infinite, and below `10 ^ -50` it is zero; both are seen before any scaling,
since at most `3 * n + 3` bits make less than `10 ^ (n + 1)`. -/
def Decimal.nearest (d : Decimal) : Nat :=
  if d.coefficient = 0 then 0
  else if 40 < d.exponent then infinity
  else if (d.coefficient.log2 / 3 : Nat) + d.exponent < -50 then 0
  else Binary32.nearest (d.coefficient * Nat.pow 10 d.exponent.toNat) (Nat.pow 10 (-d.exponent).toNat)

/-- The magnitude that a word stands for. -/
def readWord? (bytes : Bytes) : Option Nat :=
  let word := bytes.map fun b => (Char.ofNat b.toNat).toLower
  if word = "inf".toList || word = "infinity".toList then some infinity
  else if word = "nan".toList then some nan.magnitude
  else none

/-- The number that the bytes stand for. -/
def read? : Bytes → Option Binary32
  | [] => none
  | sign :: rest =>
    let negative := sign = '-'.toUInt8
    let body := if negative || sign = '+'.toUInt8 then rest else sign :: rest
    match readDecimal? body with
    | some d => some (ofMagnitude negative d.nearest)
    | none => (readWord? body).map (ofMagnitude negative)

/-- The positional form of a decimal number, without needless zeros after the
point. -/
def Decimal.layout (d : Decimal) : Bytes :=
  let zero := '0'.toUInt8
  let digits := Numeral.digits d.coefficient
  if 0 ≤ d.exponent then digits ++ List.replicate d.exponent.toNat zero
  else
    let places := (-d.exponent).toNat
    let padded := List.replicate (places + 1 - digits.length) zero ++ digits
    let split := padded.length - places
    padded.take split ++ '.'.toUInt8 :: padded.drop split

/-- The decimal number without zeros at the end of its digits. -/
def Decimal.trimmed (d : Decimal) : Decimal :=
  let zeros := ((Nat.toDigits 10 d.coefficient).reverse.takeWhile (· = '0')).length
  ⟨d.coefficient / Nat.pow 10 zeros, d.exponent + zeros⟩

/-- A finite magnitude as an exact decimal number. -/
def exactDecimal (magnitude : Nat) : Decimal := ⟨units magnitude * Nat.pow 5 149, -149⟩

/-- The decimal reads back as the magnitude. -/
def readsBack (magnitude : Nat) (d : Decimal) : Bool :=
  read? d.layout = some (ofMagnitude false magnitude)

/-- The decimals with `places` leading digits next to the exact value, the closer
one first; of two equally close the one above comes first. -/
def neighbours (exact : Decimal) (places : Nat) : List Decimal :=
  let size := (Nat.toDigits 10 exact.coefficient).length
  let dropped := size - places
  let grid := Nat.pow 10 dropped
  let below : Decimal := ⟨exact.coefficient / grid, exact.exponent + dropped⟩
  let above : Decimal := ⟨exact.coefficient / grid + 1, exact.exponent + dropped⟩
  if 2 * (exact.coefficient % grid) < grid then [below, above] else [above, below]

/-- The decimal number with the fewest digits that reads back as the magnitude, and
of those the closest to it. Nine digits always suffice; the exact value is there
for a total definition. -/
def shortestDecimal (magnitude : Nat) : Decimal :=
  let exact := exactDecimal magnitude
  let candidates := (List.range 9).flatMap fun n => (neighbours exact (n + 1)).map Decimal.trimmed
  (candidates.find? (readsBack magnitude)).getD exact

/-- The text of a magnitude. -/
def magnitudeText (magnitude : Nat) : Bytes :=
  if magnitude = 0 then ['0'.toUInt8]
  else if magnitude = infinity then "inf".toList.map Char.toUInt8
  else (shortestDecimal magnitude).layout

/-- The text of a number. -/
def text (x : Binary32) : Bytes :=
  if x.isNaN then "NaN".toList.map Char.toUInt8
  else if x.isNegative then '-'.toUInt8 :: magnitudeText x.magnitude
  else magnitudeText x.magnitude

end StoreClient.Binary32

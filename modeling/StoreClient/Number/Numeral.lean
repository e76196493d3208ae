import StoreClient.Text.Utf8

/-!
# Decimal numerals

Whole numbers as bytes: how they are written, and what is read from a numeral.
Counts and sizes on the wire are bare digits below `2 ^ 64`; number payloads may
also carry a sign.
-/

namespace StoreClient.Numeral

/-- Numbers on the wire stay below this bound, which is `2 ^ 64`. -/
def bound : Nat := 0x10000000000000000

/-- Signed numbers on the wire lie between minus this bound and one below it, which is
`2 ^ 63`. -/
def signedBound : Nat := 0x8000000000000000

/-- The byte is an ASCII digit. -/
def isDigit (byte : UInt8) : Bool := 48 ≤ byte && byte ≤ 57

/-- A non-empty sequence of digits. -/
def isNumeral (bytes : Bytes) : Bool := !bytes.isEmpty && bytes.all isDigit

/-- The number that a sequence of digits stands for. -/
def value (digits : Bytes) : Nat :=
  digits.foldl (fun n byte => 10 * n + (byte.toNat - 48)) 0

/-- The first `2 ^ k` digits of a sequence: their value, the power of ten above them,
and the digits behind them. -/
def block : (k : Nat) → Bytes → Nat × Nat × Bytes
  | 0, [] => (0, 1, [])
  | 0, byte :: rest => (byte.toNat - 48, 10, rest)
  | k + 1, digits =>
    let (upper, shift, behind) := block k digits
    let (lower, shift', rest) := block k behind
    (upper * shift' + lower, shift * shift', rest)

/-- The value of a sequence of digits, found by halving it. The numbers in between
are short, so a long numeral takes little time. -/
def valueByHalves (digits : Bytes) : Nat := (block (digits.length.log2 + 1) digits).1

/-- Reading on from a number multiplies it by ten for each digit. -/
theorem foldl_digits (digits : Bytes) (n : Nat) :
    digits.foldl (fun n byte => 10 * n + (byte.toNat - 48)) n =
      n * Nat.pow 10 digits.length + value digits := by
  induction digits generalizing n with
  | nil => simp [value]
  | cons byte rest ih =>
    have hv : value (byte :: rest) =
        (10 * 0 + (byte.toNat - 48)) * Nat.pow 10 rest.length + value rest := ih _
    rw [List.foldl_cons, ih, hv, List.length_cons]
    simp only [Nat.pow_eq, Nat.pow_succ]
    grind

/-- The value of two sequences in a row: the upper one counts as many tens as the
lower one has digits. -/
theorem value_append (upper lower : Bytes) :
    value (upper ++ lower) = value upper * Nat.pow 10 lower.length + value lower := by
  simp only [value, List.foldl_append]
  exact foldl_digits lower _

/-- A block is the front of the digits, with its value and its power of ten. -/
theorem block_eq (k : Nat) (digits : Bytes) :
    block k digits =
      (value (digits.take (Nat.pow 2 k)), Nat.pow 10 (digits.take (Nat.pow 2 k)).length,
        digits.drop (Nat.pow 2 k)) := by
  induction k generalizing digits with
  | zero =>
    cases digits with
    | nil => rfl
    | cons byte rest =>
      have hv : value [byte] = byte.toNat - 48 := Nat.zero_add _
      exact Prod.ext hv.symm rfl
  | succ k ih =>
    have hk : Nat.pow 2 (k + 1) = Nat.pow 2 k + Nat.pow 2 k := Nat.two_pow_succ k
    have hv := value_append (digits.take (Nat.pow 2 k))
      ((digits.drop (Nat.pow 2 k)).take (Nat.pow 2 k))
    rw [hk, List.take_add, hv, List.length_append]
    simp only [block, ih, List.drop_drop, Nat.pow_eq, Nat.pow_add]

/-- Halving a numeral does not change its value. -/
theorem valueByHalves_eq (digits : Bytes) : valueByHalves digits = value digits := by
  have hlong : digits.length ≤ Nat.pow 2 (digits.length.log2 + 1) :=
    Nat.le_of_lt Nat.lt_log2_self
  rw [valueByHalves, block_eq, List.take_of_length_le hlong]

/-- The shortest numeral of a number. -/
def digits (n : Nat) : Bytes := (Nat.toDigits 10 n).map Char.toUInt8

/-- The shortest numeral of an integer, with a minus sign below zero. -/
def signedDigits (n : Int) : Bytes :=
  if n < 0 then '-'.toUInt8 :: digits n.natAbs else digits n.natAbs

/-- A numeral below the bound. -/
def below? (limit : Nat) (bytes : Bytes) : Option Nat :=
  let n := valueByHalves bytes
  if isNumeral bytes && n < limit then some n else none

/-- A count or a size. -/
def count? (bytes : Bytes) : Option Nat := below? bound bytes

/-- A numeral below the bound, which may have a plus sign. -/
def unsigned? (limit : Nat) : Bytes → Option Nat
  | [] => none
  | sign :: rest =>
    if sign = '+'.toUInt8 then below? limit rest else below? limit (sign :: rest)

/-- A numeral from `-limit` to `limit - 1`, which may have either sign. -/
def signed? (limit : Nat) : Bytes → Option Int
  | [] => none
  | sign :: rest =>
    if sign = '-'.toUInt8 then (below? (limit + 1) rest).map fun n => -(n : Int)
    else (unsigned? limit (sign :: rest)).map Int.ofNat

end StoreClient.Numeral

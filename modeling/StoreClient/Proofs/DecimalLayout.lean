import StoreClient.Number.Binary32.Decimal
import StoreClient.Proofs.Numerals
import Mathlib.Data.List.TakeWhile

/-!
# The positional form of decimal numbers

A decimal number is laid out in digits with at most one point. With a point it is read
back as the same decimal number, and without one it still starts with a digit. So the
form is one line, and no sign is mistaken for a part of it.
-/

namespace StoreClient.Binary32

/-- The byte of the point. -/
def point : UInt8 := '.'.toUInt8

/-- The byte of the digit zero. -/
def zero : UInt8 := '0'.toUInt8

namespace Decimal

/-- How many digits stand behind the point. -/
def places (d : Decimal) : Nat := (-d.exponent).toNat

/-- The digits of a number below one start with zeros, one of them in front of the
point. -/
def padded (d : Decimal) : Bytes :=
  List.replicate (d.places + 1 - (Numeral.digits d.coefficient).length) zero ++
    Numeral.digits d.coefficient

/-- The digits in front of the point. -/
def whole (d : Decimal) : Bytes := d.padded.take (d.padded.length - d.places)

/-- The digits behind the point. -/
def fraction (d : Decimal) : Bytes := d.padded.drop (d.padded.length - d.places)

/-- A number with a negative exponent is laid out with a point. -/
theorem layout_of_neg {d : Decimal} (h : d.exponent < 0) :
    d.layout = d.whole ++ point :: d.fraction := by
  unfold layout
  rw [if_neg (by omega)]
  rfl

/-- A number without a negative exponent is laid out with zeros at its end. -/
theorem layout_of_nonneg {d : Decimal} (h : 0 ≤ d.exponent) :
    d.layout = Numeral.digits d.coefficient ++ List.replicate d.exponent.toNat zero := by
  unfold layout
  rw [if_pos h]
  rfl

/-- The padding leaves a digit in front of the point. -/
theorem places_lt_length_padded (d : Decimal) : d.places < d.padded.length := by
  simp only [padded, List.length_append, List.length_replicate]
  omega

/-- The padding holds digits only. -/
theorem isDigit_of_mem_padded {d : Decimal} {b : UInt8} (h : b ∈ d.padded) :
    Numeral.isDigit b = true := by
  rw [padded, List.mem_append] at h
  rcases h with h | h
  · rw [(List.mem_replicate.mp h).2]
    rfl
  · exact Numeral.isDigit_of_mem_digits h

/-- A digit stands in front of the point. -/
theorem whole_ne_nil (d : Decimal) : d.whole ≠ [] := by
  have hlength := d.places_lt_length_padded
  rw [whole, ← List.length_pos_iff, List.length_take]
  omega

/-- Digits only stand in front of the point. -/
theorem isDigit_of_mem_whole {d : Decimal} {b : UInt8} (h : b ∈ d.whole) :
    Numeral.isDigit b = true := isDigit_of_mem_padded (List.mem_of_mem_take h)

/-- Digits only stand behind the point. -/
theorem isDigit_of_mem_fraction {d : Decimal} {b : UInt8} (h : b ∈ d.fraction) :
    Numeral.isDigit b = true := isDigit_of_mem_padded (List.mem_of_mem_drop h)

/-- The digits around the point make up the coefficient. -/
theorem value_padded (d : Decimal) : Numeral.value d.padded = d.coefficient := by
  rw [padded, Numeral.value_append, zero, Numeral.value_zeros, Numeral.value_digits]
  simp

/-- The positional form starts with a digit. -/
theorem exists_layout_eq_cons (d : Decimal) :
    ∃ b rest, d.layout = b :: rest ∧ Numeral.isDigit b = true := by
  by_cases h : 0 ≤ d.exponent
  · obtain ⟨b, rest, hdigits, hb⟩ := Numeral.exists_digits_eq_cons d.coefficient
    exact ⟨b, _, by rw [layout_of_nonneg h, hdigits, List.cons_append], hb⟩
  · obtain ⟨b, rest, hb⟩ := List.exists_cons_of_ne_nil d.whole_ne_nil
    refine ⟨b, _, by rw [layout_of_neg (by omega), hb, List.cons_append], ?_⟩
    exact isDigit_of_mem_whole (hb ▸ List.mem_cons_self)

/-- The positional form holds digits and a point. -/
theorem mem_layout {d : Decimal} {b : UInt8} (h : b ∈ d.layout) :
    Numeral.isDigit b = true ∨ b = point := by
  by_cases hexponent : 0 ≤ d.exponent
  · rw [layout_of_nonneg hexponent, List.mem_append] at h
    rcases h with h | h
    · exact .inl (Numeral.isDigit_of_mem_digits h)
    · rw [(List.mem_replicate.mp h).2]
      exact .inl rfl
  · rw [layout_of_neg (by omega), List.mem_append, List.mem_cons] at h
    rcases h with h | h | h
    · exact .inl (isDigit_of_mem_whole h)
    · exact .inr h
    · exact .inl (isDigit_of_mem_fraction h)

/-- The positional form is as long as its digits and its exponent ask for. -/
theorem length_layout_le (d : Decimal) :
    d.layout.length ≤ (Numeral.digits d.coefficient).length + d.exponent.natAbs + 2 := by
  by_cases h : 0 ≤ d.exponent
  · rw [layout_of_nonneg h, List.length_append, List.length_replicate]
    omega
  · have hplaces : d.places = d.exponent.natAbs := by
      unfold places
      omega
    have hpadded : d.padded.length ≤ (Numeral.digits d.coefficient).length + d.places + 1 := by
      simp only [padded, List.length_append, List.length_replicate]
      omega
    rw [layout_of_neg (by omega), List.length_append, List.length_cons, whole, fraction,
      List.length_take, List.length_drop]
    omega

end Decimal

/-- Digits, a point and digits are read as the number with those digits. -/
theorem readDecimal?_pointed {whole fraction : Bytes} (hne : whole ≠ [])
    (hwhole : ∀ b ∈ whole, Numeral.isDigit b = true)
    (hfraction : ∀ b ∈ fraction, Numeral.isDigit b = true) :
    readDecimal? (whole ++ point :: fraction) =
      some ⟨Numeral.value (whole ++ fraction), -(fraction.length : Int)⟩ := by
  have htake : (whole ++ point :: fraction).takeWhile Numeral.isDigit = whole := by
    rw [List.takeWhile_append_of_pos hwhole]
    simp [show Numeral.isDigit point = false from rfl]
  have hdrop : (whole ++ point :: fraction).dropWhile Numeral.isDigit = point :: fraction := by
    rw [List.dropWhile_append_of_pos hwhole]
    simp [show Numeral.isDigit point = false from rfl]
  have htake' : fraction.takeWhile Numeral.isDigit = fraction :=
    List.takeWhile_eq_self_iff.mpr hfraction
  have hdrop' : fraction.dropWhile Numeral.isDigit = [] :=
    List.dropWhile_eq_nil_iff.mpr hfraction
  have hempty : whole.isEmpty = false := by simpa using hne
  unfold readDecimal?
  simp only [htake, hdrop]
  simp [point, htake', hdrop', hempty, readExponent?, Numeral.valueByHalves_eq]

/-- A number with a negative exponent is read back from its positional form. -/
theorem readDecimal?_layout {d : Decimal} (h : d.exponent < 0) :
    readDecimal? d.layout = some d := by
  rw [Decimal.layout_of_neg h, readDecimal?_pointed d.whole_ne_nil
    (fun b => Decimal.isDigit_of_mem_whole) (fun b => Decimal.isDigit_of_mem_fraction)]
  have hsplit : d.whole ++ d.fraction = d.padded := List.take_append_drop _ _
  have hfraction : d.fraction.length = d.places := by
    have hlength := d.places_lt_length_padded
    rw [Decimal.fraction, List.length_drop]
    omega
  have hexponent : -(d.places : Int) = d.exponent := by
    unfold Decimal.places
    omega
  rw [hsplit, d.value_padded, hfraction, hexponent]

end StoreClient.Binary32

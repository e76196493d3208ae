import StoreClient.Proofs.FloatText

/-!
# The text of a number is short

The shortest text of a number may still be long, since no exponent is written. This
file bounds it, so that its size always fits into the size line in front of it.
-/

namespace StoreClient.Binary32

/-- A magnitude has few bits more than its exponent. -/
theorem units_lt {m k : Nat} (h : m / exponentBit ≤ k) : units m < 2 ^ (24 + k) := by
  have hbit : exponentBit < 2 ^ 24 := by decide
  rw [pow_add]
  by_cases hsmall : m < exponentBit
  · rw [units_of_lt hsmall]
    exact (hsmall.trans hbit).trans_le (Nat.le_mul_of_pos_right _ (Nat.two_pow_pos k))
  · have hfraction : exponentBit + m % exponentBit < 2 ^ 24 := by
      have := Nat.mod_lt m (show 0 < exponentBit by decide)
      rw [show (2 : Nat) ^ 24 = exponentBit + exponentBit from rfl]
      omega
    rw [units_of_le (Nat.not_lt.mp hsmall)]
    exact Nat.mul_lt_mul_of_lt_of_le hfraction
      (Nat.pow_le_pow_right (by decide) (by omega)) (Nat.two_pow_pos k)

/-- A magnitude scaled by a power of five has few digits. -/
theorem units_mul_five_pow_lt {m k : Nat} (h : m / exponentBit ≤ k) (j : Nat) :
    units m * 5 ^ j < 10 ^ (24 + k + j) := by
  rw [pow_add]
  calc
    units m * 5 ^ j < 2 ^ (24 + k) * 5 ^ j :=
      Nat.mul_lt_mul_of_pos_right (units_lt h) (Nat.pow_pos (by decide))
    _ ≤ 10 ^ (24 + k) * 10 ^ j :=
      Nat.mul_le_mul (Nat.pow_le_pow_left (by decide) _) (Nat.pow_le_pow_left (by decide) _)

namespace Decimal

/-- The decimal has at most about `k` digits and an exponent of at most `n`. -/
structure Within (d : Decimal) (k n : Nat) : Prop where
  coefficient : d.coefficient ≤ 10 ^ k
  exponent : d.exponent.natAbs ≤ n

variable {d exact : Decimal} {k n places : Nat}

/-- A coefficient within a bound has one digit more at most. -/
theorem Within.coefficient_lt (h : d.Within k n) : d.coefficient < 10 ^ (k + 1) :=
  h.coefficient.trans_lt (Nat.pow_lt_pow_right (by decide) (Nat.lt_succ_self k))

/-- The positional form of a decimal within bounds is short. -/
theorem Within.length_layout_le (h : d.Within k n) : d.layout.length ≤ k + n + 3 := by
  have hdigits := Numeral.length_digits_le (Nat.succ_pos k) h.coefficient_lt
  have hlayout := d.length_layout_le
  have hexponent := h.exponent
  omega

/-- Dropping zeros at the end raises the exponent by their number at most. -/
theorem Within.trimmed (h : d.Within k n) : d.trimmed.Within k (n + k + 1) := by
  have hdigits := (Nat.length_toDigits_le_iff (by decide) (Nat.succ_pos k)).mpr h.coefficient_lt
  have hzeros := (List.takeWhile_prefix (l := (Nat.toDigits 10 d.coefficient).reverse)
    (fun c => decide (c = '0'))).length_le
  rw [List.length_reverse] at hzeros
  have hexponent := h.exponent
  refine ⟨(Nat.div_le_self _ _).trans h.coefficient, ?_⟩
  unfold Decimal.trimmed
  dsimp only
  omega

/-- The decimals next to an exact value have no more digits than it has. -/
theorem Within.of_mem_neighbours (h : exact.Within k n) (hlt : exact.coefficient < 10 ^ k)
    (hmem : d ∈ neighbours exact places) : d.Within k (n + k + 1) := by
  have hdigits :=
    (Nat.length_toDigits_le_iff (by decide) (Nat.succ_pos k)).mpr h.coefficient_lt
  have hexponent := h.exponent
  let dropped := (Nat.toDigits 10 exact.coefficient).length - places
  have hbelow : exact.coefficient / Nat.pow 10 dropped ≤ exact.coefficient := Nat.div_le_self _ _
  have hd : d.coefficient ≤ exact.coefficient / Nat.pow 10 dropped + 1 ∧
      d.exponent = exact.exponent + dropped := by
    unfold neighbours at hmem
    dsimp only at hmem
    split at hmem
    · simp only [List.mem_cons, List.not_mem_nil, or_false] at hmem
      rcases hmem with rfl | rfl
      · exact ⟨Nat.le_succ _, rfl⟩
      · exact ⟨le_rfl, rfl⟩
    · simp only [List.mem_cons, List.not_mem_nil, or_false] at hmem
      rcases hmem with rfl | rfl
      · exact ⟨le_rfl, rfl⟩
      · exact ⟨Nat.le_succ _, rfl⟩
  exact ⟨by omega, by omega⟩

end Decimal

/-- The shortest decimal of a magnitude is laid out within bounds. -/
theorem length_shortest_le {m k : Nat} (h : (exactDecimal m).coefficient < 10 ^ k) :
    (shortestDecimal m).layout.length ≤ 3 * k + 154 := by
  have hexact : (exactDecimal m).Within k 149 := ⟨h.le, le_rfl⟩
  unfold shortestDecimal
  dsimp only
  cases hfind : List.find? (readsBack m) _ with
  | some d =>
    obtain ⟨n, _, hmem⟩ := List.mem_flatMap.mp (List.mem_of_find?_eq_some hfind)
    obtain ⟨neighbour, hneighbour, rfl⟩ := List.mem_map.mp hmem
    have := (hexact.of_mem_neighbours h hneighbour).trimmed.length_layout_le
    rw [Option.getD_some]
    omega
  | none =>
    have := hexact.length_layout_le
    rw [Option.getD_none]
    omega

/-- The text of a magnitude is short. -/
theorem length_magnitudeText_le {m : Nat} (hm : m ≤ infinity) :
    (magnitudeText m).length ≤ 1438 := by
  have hshortest := length_shortest_le (units_mul_five_pow_lt (Nat.div_le_div_right hm) 149)
  unfold magnitudeText
  split
  · decide
  · split
    · decide
    · exact hshortest

/-- The text of a number fits behind its size line. -/
theorem length_text_lt {x : Binary32} (h : x.isNaN = false) : x.text.length < Numeral.bound := by
  have hm : x.magnitude ≤ infinity := by simpa [isNaN] using h
  have hmagnitude := length_magnitudeText_le hm
  unfold text Numeral.bound
  split
  · decide
  · split
    · rw [List.length_cons]
      omega
    · omega

end StoreClient.Binary32

import StoreClient.Proofs.DecimalLayout
import StoreClient.Proofs.Rounding

/-!
# The text of a number reads back

Single-precision numbers travel as decimal text. This file proves that reading undoes
writing for every number, the infinite ones and the two zeros included; only what is
not a number is left out. The shortest text is one that was found to read back; where
none was found, the exact value is written.
-/

namespace StoreClient.Binary32

/-- The magnitude that bytes without a sign stand for. -/
def readMagnitude? (bytes : Bytes) : Option Nat :=
  match readDecimal? bytes with
  | some d => some d.nearest
  | none => readWord? bytes

/-- Bytes that start with no sign are read as a magnitude. -/
theorem read?_cons {b : UInt8} (rest : Bytes) (hplus : b ≠ '+'.toUInt8) (hminus : b ≠ '-'.toUInt8) :
    read? (b :: rest) = (readMagnitude? (b :: rest)).map (ofMagnitude false) := by
  simp only [read?, readMagnitude?, hplus, hminus, decide_false, Bool.or_self, Bool.false_eq_true,
    if_false]
  cases readDecimal? (b :: rest) <;> rfl

/-- Behind a minus sign a magnitude is read. -/
theorem read?_minus (body : Bytes) :
    read? ('-'.toUInt8 :: body) = (readMagnitude? body).map (ofMagnitude true) := by
  simp only [read?, readMagnitude?, decide_true, Bool.true_or, if_true]
  cases readDecimal? body <;> rfl

/-- No decimal rounds beyond infinity. -/
theorem nearest_le_infinity (d : Decimal) : d.nearest ≤ infinity := by
  unfold Decimal.nearest
  split
  · exact Nat.zero_le _
  · split
    · exact le_rfl
    · split
      · exact Nat.zero_le _
      · exact min_le_right _ _

/-- A magnitude that was read leaves the sign bit free. -/
theorem readMagnitude?_lt {bytes : Bytes} {m : Nat} (h : readMagnitude? bytes = some m) :
    m < signBit := by
  have hinfinity : infinity < signBit := by decide
  unfold readMagnitude? at h
  split at h
  · rename_i d _
    cases h
    exact (nearest_le_infinity d).trans_lt hinfinity
  · unfold readWord? at h
    dsimp only at h
    split at h
    · cases h
      exact hinfinity
    · split at h
      · cases h
        decide
      · cases h

/-- Numbers without a sign are told apart by their magnitudes. -/
theorem ofMagnitude_false_inj {m n : Nat} (hm : m < signBit) (hn : n < signBit)
    (h : ofMagnitude false m = ofMagnitude false n) : m = n := by
  have hbits := congrArg (fun x => x.bits.toNat) h
  unfold signBit at hm hn
  simp only [ofMagnitude, Bool.false_eq_true, if_false, UInt32.toNat_ofNat'] at hbits
  omega

/-- A number is its sign and its magnitude. -/
theorem ofMagnitude_magnitude (x : Binary32) : ofMagnitude x.isNegative x.magnitude = x := by
  have hbits := x.bits.toNat_lt
  have hmod : (if signBit ≤ x.bits.toNat then signBit + x.bits.toNat % signBit
      else x.bits.toNat % signBit) = x.bits.toNat := by
    unfold signBit
    split <;> omega
  unfold ofMagnitude isNegative magnitude
  simp only [decide_eq_true_eq, hmod, UInt32.ofNat_toNat]

/-- The text of a magnitude starts with no sign. -/
theorem exists_magnitudeText_eq_cons (m : Nat) :
    ∃ b rest, magnitudeText m = b :: rest ∧ b ≠ '+'.toUInt8 ∧ b ≠ '-'.toUInt8 := by
  unfold magnitudeText
  split
  · exact ⟨_, _, rfl, by decide, by decide⟩
  · split
    · exact ⟨_, _, rfl, by decide, by decide⟩
    · obtain ⟨b, rest, hlayout, hb⟩ := (shortestDecimal m).exists_layout_eq_cons
      exact ⟨b, rest, hlayout, Numeral.ne_of_isDigit hb rfl, Numeral.ne_of_isDigit hb rfl⟩

/-- The shortest decimal of a magnitude is read as that magnitude. -/
theorem readMagnitude?_shortest {m : Nat} (hpos : 0 < m) (hm : m ≤ infinity) :
    readMagnitude? (shortestDecimal m).layout = some m := by
  have hsign : m < signBit := hm.trans_lt (by decide)
  unfold shortestDecimal
  dsimp only
  cases hfind : List.find? (readsBack m) _ with
  | some d =>
    have hback := List.find?_some hfind
    obtain ⟨b, rest, hlayout, hb⟩ := d.exists_layout_eq_cons
    have hplus : b ≠ '+'.toUInt8 := Numeral.ne_of_isDigit hb rfl
    have hminus : b ≠ '-'.toUInt8 := Numeral.ne_of_isDigit hb rfl
    simp only [readsBack, decide_eq_true_eq, hlayout, read?_cons rest hplus hminus,
      Option.map_eq_some_iff] at hback
    obtain ⟨n, hn, heq⟩ := hback
    rw [Option.getD_some, hlayout, hn, ofMagnitude_false_inj (readMagnitude?_lt hn) hsign heq]
  | none =>
    rw [Option.getD_none, readMagnitude?, readDecimal?_layout (show (-149 : Int) < 0 by decide)]
    exact congrArg some (nearest_exactDecimal hpos hm)

/-- The text of a magnitude is read as that magnitude. -/
theorem readMagnitude?_magnitudeText {m : Nat} (hm : m ≤ infinity) :
    readMagnitude? (magnitudeText m) = some m := by
  unfold magnitudeText
  split
  · rename_i hzero
    subst hzero
    rfl
  · split
    · rename_i hinfinity
      subst hinfinity
      rfl
    · exact readMagnitude?_shortest (by omega) hm

/-- The text of a number is read as that number. -/
theorem read?_text {x : Binary32} (h : x.isNaN = false) : read? x.text = some x := by
  have hm : x.magnitude ≤ infinity := by simpa [isNaN] using h
  have hread := readMagnitude?_magnitudeText hm
  have hx := ofMagnitude_magnitude x
  unfold text
  rw [if_neg (by simp [h])]
  cases hsign : x.isNegative with
  | true =>
    rw [hsign] at hx
    simp only [if_true, read?_minus, hread, Option.map_some, hx]
  | false =>
    rw [hsign] at hx
    obtain ⟨b, rest, htext, hplus, hminus⟩ := exists_magnitudeText_eq_cons x.magnitude
    rw [htext] at hread
    simp only [Bool.false_eq_true, if_false, htext, read?_cons rest hplus hminus, hread,
      Option.map_some, hx]

/-- The bytes of a magnitude's text are digits, a point, or letters of infinity. -/
theorem newline_not_mem_magnitudeText (m : Nat) : 10 ∉ magnitudeText m := by
  unfold magnitudeText
  split
  · decide
  · split
    · decide
    · intro hmem
      rcases Decimal.mem_layout hmem with h | h <;> cases h

/-- The text of a number is one line. -/
theorem newline_not_mem_text (x : Binary32) : 10 ∉ x.text := by
  have hmagnitude := newline_not_mem_magnitudeText x.magnitude
  unfold text
  split
  · decide
  · split
    · rw [List.mem_cons, not_or]
      exact ⟨by decide, hmagnitude⟩
    · exact hmagnitude

end StoreClient.Binary32

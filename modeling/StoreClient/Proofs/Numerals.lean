import StoreClient.Number.Numeral
import Mathlib.Data.Int.Order.Basic
import Mathlib.Data.List.Induction

/-!
# Numerals read back

The numeral that is written for a number is read as that number, below whatever bound
the reader sets. Numerals hold digits only, so neither a sign nor a newline is ever
mistaken for a part of one. Zeros in front of a numeral change nothing, and apart from
them and a plus sign every number has one spelling.
-/

namespace StoreClient.Numeral

/-- The character of a digit is the byte of that digit. -/
theorem toUInt8_digitChar : ∀ d < 10, (Nat.digitChar d).toUInt8 = UInt8.ofNat (48 + d) := by
  decide

/-- A number below ten has one digit. -/
theorem digits_of_lt {n : Nat} (h : n < 10) : digits n = [UInt8.ofNat (48 + n)] := by
  rw [digits, Nat.toDigits_of_lt_base h, List.map_singleton, toUInt8_digitChar n h]

/-- The last digit of a number is its remainder. -/
theorem digits_of_le {n : Nat} (h : 10 ≤ n) :
    digits n = digits (n / 10) ++ [UInt8.ofNat (48 + n % 10)] := by
  rw [digits, Nat.toDigits_of_base_le (by decide) h, List.map_append, List.map_singleton,
    toUInt8_digitChar (n % 10) (Nat.mod_lt n (by decide))]
  rfl

/-- A numeral has at least one digit. -/
theorem digits_ne_nil (n : Nat) : digits n ≠ [] := by
  simp [digits, Nat.toDigits_ne_nil]

/-- The byte of a digit is a digit. -/
theorem isDigit_ofNat : ∀ d < 10, isDigit (UInt8.ofNat (48 + d)) = true := by
  decide

/-- A numeral holds digits only. -/
theorem isDigit_of_mem_digits {n : Nat} {b : UInt8} (h : b ∈ digits n) : isDigit b = true := by
  induction n using Nat.strongRecOn with
  | ind n ih =>
    by_cases hn : n < 10
    · rw [digits_of_lt hn, List.mem_singleton] at h
      rw [h]
      exact isDigit_ofNat n hn
    · rw [digits_of_le (by omega), List.mem_append, List.mem_singleton] at h
      rcases h with h | h
      · exact ih (n / 10) (by omega) h
      · rw [h]
        exact isDigit_ofNat (n % 10) (by omega)

/-- What is written for a number is a numeral. -/
theorem isNumeral_digits (n : Nat) : isNumeral (digits n) = true := by
  have hempty : (digits n).isEmpty = false := by simp [digits_ne_nil]
  have hall : (digits n).all isDigit = true := by
    simpa using fun b hb => isDigit_of_mem_digits hb
  simp [isNumeral, hempty, hall]

/-- The value of a single digit. -/
theorem value_digit : ∀ d < 10, value [UInt8.ofNat (48 + d)] = d := by
  decide

/-- The numeral of a number stands for that number. -/
theorem value_digits (n : Nat) : value (digits n) = n := by
  induction n using Nat.strongRecOn with
  | ind n ih =>
    by_cases hn : n < 10
    · rw [digits_of_lt hn, value_digit n hn]
    · rw [digits_of_le (by omega), value_append, ih (n / 10) (by omega),
        value_digit (n % 10) (by omega)]
      simp
      omega

/-- A number below a power of ten has few digits. -/
theorem length_digits_le {n k : Nat} (hk : 0 < k) (h : n < Nat.pow 10 k) :
    (digits n).length ≤ k := by
  rw [digits, List.length_map]
  exact (Nat.length_toDigits_le_iff (by decide) hk).mpr h

/-- A digit differs from every byte that is none. -/
theorem ne_of_isDigit {b c : UInt8} (hb : isDigit b = true) (hc : isDigit c = false) : b ≠ c := by
  rintro rfl
  rw [hb] at hc
  cases hc

/-- A byte that is no digit is in no numeral. -/
theorem not_mem_digits {b : UInt8} (h : isDigit b = false) (n : Nat) : b ∉ digits n := by
  intro hmem
  exact ne_of_isDigit (isDigit_of_mem_digits hmem) h rfl

/-- A numeral below the limit is read back. -/
theorem below?_digits {n limit : Nat} (h : n < limit) : below? limit (digits n) = some n := by
  simp [below?, valueByHalves_eq, value_digits, isNumeral_digits, h]

/-- A count below the bound is read back. -/
theorem count?_digits {n : Nat} (h : n < bound) : count? (digits n) = some n :=
  below?_digits h

/-- A numeral starts with a digit. -/
theorem exists_digits_eq_cons (n : Nat) : ∃ b rest, digits n = b :: rest ∧ isDigit b = true := by
  obtain ⟨b, rest, h⟩ := List.exists_cons_of_ne_nil (digits_ne_nil n)
  exact ⟨b, rest, h, isDigit_of_mem_digits (h ▸ List.mem_cons_self)⟩

/-- A number without a sign is read back where a plus sign may stand. -/
theorem unsigned?_digits {n limit : Nat} (h : n < limit) :
    unsigned? limit (digits n) = some n := by
  obtain ⟨b, rest, hdigits, hb⟩ := exists_digits_eq_cons n
  have hplus : b ≠ '+'.toUInt8 := ne_of_isDigit hb rfl
  have hread := below?_digits h
  rw [hdigits] at hread ⊢
  simp only [unsigned?, if_neg hplus, hread]

/-- An integer is read back with its sign. -/
theorem signed?_signedDigits {n : Int} {limit : Nat} (hlow : -(limit : Int) ≤ n)
    (hhigh : n < limit) : signed? limit (signedDigits n) = some n := by
  by_cases hn : n < 0
  · have hread := below?_digits (show n.natAbs < limit + 1 by omega)
    simp only [signedDigits, if_pos hn, signed?, if_true, hread, Option.bind_eq_bind,
      Option.bind_some, Option.pure_def, Option.map_some]
    congr 1
    omega
  · have hread := unsigned?_digits (show n.natAbs < limit by omega)
    obtain ⟨b, rest, hdigits, hb⟩ := exists_digits_eq_cons n.natAbs
    have hminus : b ≠ '-'.toUInt8 := ne_of_isDigit hb rfl
    rw [hdigits] at hread
    simp only [signedDigits, if_neg hn, hdigits, signed?, if_neg hminus, hread, Option.map_some]
    congr 1
    exact Int.natAbs_of_nonneg (by omega)

/-- Zeros stand for zero. -/
theorem value_zeros (k : Nat) : value (List.replicate k '0'.toUInt8) = 0 := by
  induction k with
  | zero => rfl
  | succ k ih =>
    rw [List.replicate_succ', value_append, ih]
    rfl

/-- A digit is the byte of its value. -/
theorem eq_ofNat_of_isDigit {b : UInt8} (h : isDigit b = true) :
    value [b] < 10 ∧ b = UInt8.ofNat (48 + value [b]) := by
  simp only [isDigit, Bool.and_eq_true, decide_eq_true_eq, UInt8.le_iff_toNat_le] at h
  have hlow : 48 ≤ b.toNat := h.1
  have hhigh : b.toNat ≤ 57 := h.2
  have hvalue : value [b] = b.toNat - 48 := by simp [value]
  rw [hvalue]
  constructor
  · omega
  · apply UInt8.toNat_inj.mp
    rw [UInt8.toNat_ofNat']
    omega

/-- A numeral is the shortest one of its value, with zeros in front of it. -/
theorem exists_zeros {bytes : Bytes} (h : isNumeral bytes = true) :
    ∃ zeros, bytes = List.replicate zeros '0'.toUInt8 ++ digits (value bytes) := by
  -- The digit at the end is the remainder of the value, so the induction is on the end.
  induction bytes using List.reverseRecOn with
  | nil => simp [isNumeral] at h
  | append_singleton front b ih =>
    have hdigits : ∀ c ∈ front ++ [b], isDigit c = true := by
      simp only [isNumeral, Bool.and_eq_true, List.all_eq_true] at h
      exact h.2
    obtain ⟨hsmall, hb⟩ := eq_ofNat_of_isDigit (hdigits b (by simp))
    have hvalue : value (front ++ [b]) = value front * 10 + value [b] := value_append front [b]
    by_cases hfront : front = []
    · subst hfront
      refine ⟨0, ?_⟩
      rw [List.nil_append, digits_of_lt hsmall, ← hb]
      rfl
    · have hnumeral : isNumeral front = true := by
        have hne : front.isEmpty = false := by simp [hfront]
        have hall : front.all isDigit = true := by
          rw [List.all_eq_true]
          intro c hc
          exact hdigits c (List.mem_append_left [b] hc)
        simp [isNumeral, hne, hall]
      obtain ⟨zeros, hzeros⟩ := ih hnumeral
      by_cases hzero : value front = 0
      · refine ⟨zeros + 1, ?_⟩
        rw [hzero] at hzeros hvalue
        have hlast : digits (value (front ++ [b])) = [b] := by
          rw [hvalue, Nat.zero_mul, Nat.zero_add, digits_of_lt hsmall, ← hb]
        rw [hlast, List.replicate_succ']
        exact congrArg (· ++ [b]) hzeros
      · refine ⟨zeros, ?_⟩
        have hlarge : 10 ≤ value (front ++ [b]) := by omega
        have hquotient : value (front ++ [b]) / 10 = value front := by omega
        have hremainder : value (front ++ [b]) % 10 = value [b] := by omega
        rw [digits_of_le hlarge, hquotient, hremainder, ← hb, ← List.append_assoc, ← hzeros]

/-- Zeros and the numeral behind them are digits. -/
theorem isDigit_of_mem_spelled {b : UInt8} {zeros n : Nat}
    (h : b ∈ List.replicate zeros '0'.toUInt8 ++ digits n) : isDigit b = true := by
  rcases List.mem_append.mp h with h | h
  · rw [List.eq_of_mem_replicate h]
    rfl
  · exact isDigit_of_mem_digits h

/-- What is read below a limit: a number below it, with any zeros in front. -/
theorem below?_eq_some_iff {limit n : Nat} {bytes : Bytes} :
    below? limit bytes = some n ↔
      n < limit ∧ ∃ zeros, bytes = List.replicate zeros '0'.toUInt8 ++ digits n := by
  simp only [below?, valueByHalves_eq, Bool.and_eq_true, decide_eq_true_eq,
    Option.ite_none_right_eq_some, Option.some.injEq]
  constructor
  · rintro ⟨⟨hnumeral, hlimit⟩, rfl⟩
    exact ⟨hlimit, exists_zeros hnumeral⟩
  · rintro ⟨hlimit, zeros, rfl⟩
    have hvalue : value (List.replicate zeros '0'.toUInt8 ++ digits n) = n := by
      simp [value_append, value_zeros, value_digits]
    have hnumeral : isNumeral (List.replicate zeros '0'.toUInt8 ++ digits n) = true := by
      have hall : (List.replicate zeros '0'.toUInt8 ++ digits n).all isDigit = true := by
        rw [List.all_eq_true]
        intro b hb
        exact isDigit_of_mem_spelled hb
      simp [isNumeral, hall, digits_ne_nil]
    rw [hvalue]
    exact ⟨⟨hnumeral, hlimit⟩, rfl⟩

/-- What is read where a plus sign may stand: the same, or that behind a plus sign. -/
theorem unsigned?_eq_some_iff {limit n : Nat} {bytes : Bytes} :
    unsigned? limit bytes = some n ↔
      n < limit ∧ ∃ (plus : Bool) (zeros : Nat), bytes =
        (if plus then ['+'.toUInt8] else []) ++
          (List.replicate zeros '0'.toUInt8 ++ digits n) := by
  constructor
  · intro h
    cases bytes with
    | nil => cases h
    | cons sign rest =>
      by_cases hsign : sign = '+'.toUInt8
      · rw [unsigned?, if_pos hsign, below?_eq_some_iff] at h
        obtain ⟨hlimit, zeros, hrest⟩ := h
        refine ⟨hlimit, true, zeros, ?_⟩
        rw [hsign, hrest]
        rfl
      · rw [unsigned?, if_neg hsign, below?_eq_some_iff] at h
        obtain ⟨hlimit, zeros, hbytes⟩ := h
        exact ⟨hlimit, false, zeros, hbytes⟩
  · rintro ⟨hlimit, plus, zeros, rfl⟩
    have hread : below? limit (List.replicate zeros '0'.toUInt8 ++ digits n) = some n :=
      below?_eq_some_iff.mpr ⟨hlimit, zeros, rfl⟩
    cases plus with
    | true => exact hread
    | false =>
      obtain ⟨b, rest, hcons⟩ := List.exists_cons_of_ne_nil
        (show List.replicate zeros '0'.toUInt8 ++ digits n ≠ [] by simp [digits_ne_nil])
      have hb : b ≠ '+'.toUInt8 := by
        have hmem : b ∈ List.replicate zeros '0'.toUInt8 ++ digits n := by
          rw [hcons]
          exact List.mem_cons_self
        exact ne_of_isDigit (isDigit_of_mem_spelled hmem) rfl
      rw [hcons] at hread
      simp [hcons, unsigned?, hb, hread]

/-- The numeral of a number below the bound is short. -/
theorem length_digits_lt {n : Nat} (h : n < bound) : (digits n).length < bound := by
  have hlength : (digits n).length ≤ 20 :=
    length_digits_le (by decide) (Nat.lt_of_lt_of_le h (by decide))
  exact Nat.lt_of_le_of_lt hlength (by decide)

/-- The numeral of a signed number within the bounds is short. -/
theorem length_signedDigits_lt {n : Int} (hlow : -(signedBound : Int) ≤ n)
    (hhigh : n < signedBound) : (signedDigits n).length < bound := by
  have hsize : n.natAbs < 10 ^ 19 := by
    have hbound : signedBound < 10 ^ 19 := by decide
    omega
  have hlength := length_digits_le (by decide) hsize
  unfold signedDigits
  split
  · rw [List.length_cons]
    exact Nat.lt_of_le_of_lt (Nat.succ_le_succ hlength) (by decide)
  · exact Nat.lt_of_le_of_lt hlength (by decide)

/-- No numeral of an integer holds a newline. -/
theorem newline_not_mem_signedDigits (n : Int) : 10 ∉ signedDigits n := by
  have hdigits := not_mem_digits (b := 10) (by decide) n.natAbs
  unfold signedDigits
  split
  · rw [List.mem_cons, not_or]
    exact ⟨by decide, hdigits⟩
  · exact hdigits

end StoreClient.Numeral

import StoreClient.Proofs.FloatText
import StoreClient.Wire.Batch
import Mathlib.Data.List.Forall2
import Mathlib.Data.Nat.Digits.Defs

/-!
# Lines that hold numbers

Which lines are numbers, said of their bytes alone: digits with a value in range, perhaps behind a
sign, and for the floating point also a point, an exponent, and the words for infinity and for
what is not a number. The decoder reads a number from just these lines.
-/

namespace StoreClient

namespace Grammar

/-- The byte is a digit from zero to nine. -/
def IsDigit (byte : UInt8) : Prop := 48 ≤ byte ∧ byte ≤ 57

instance (byte : UInt8) : Decidable (IsDigit byte) :=
  inferInstanceAs (Decidable (48 ≤ byte ∧ byte ≤ 57))

/-- Digits, at least one, that stand for this number. -/
structure Digits (n : Nat) (bytes : Bytes) : Prop where
  ne_nil : bytes ≠ []
  isDigit : ∀ byte ∈ bytes, IsDigit byte
  value_eq : Nat.ofDigits 10 (bytes.reverse.map fun byte => byte.toNat - 48) = n

/-- A whole number below the limit, which may have a plus sign. -/
inductive Unsigned (limit : Nat) : Bytes → Prop where
  | bare {n : Nat} {digits : Bytes} : Digits n digits → n < limit → Unsigned limit digits
  | plus {n : Nat} {digits : Bytes} : Digits n digits → n < limit →
      Unsigned limit ('+'.toUInt8 :: digits)

/-- A whole number from minus the limit to one below it, which may have either sign. -/
inductive Signed (limit : Nat) : Bytes → Prop where
  | positive {bytes : Bytes} : Unsigned limit bytes → Signed limit bytes
  | negative {n : Nat} {digits : Bytes} : Digits n digits → n ≤ limit →
      Signed limit ('-'.toUInt8 :: digits)

/-- A sign, or none. -/
inductive Sign : Bytes → Prop where
  | none : Sign []
  | plus : Sign ['+'.toUInt8]
  | minus : Sign ['-'.toUInt8]

/-- The end of a decimal number: nothing, or the letter `e`, a sign or none, and digits. -/
inductive Exponent : Bytes → Prop where
  | none : Exponent []
  | some {n : Nat} {mark : UInt8} {sign digits : Bytes} :
      mark = 'e'.toUInt8 ∨ mark = 'E'.toUInt8 → Sign sign → Digits n digits →
      Exponent (mark :: (sign ++ digits))

/-- A decimal number without a sign: digits, and perhaps a point among them or beside them. -/
inductive Decimal : Bytes → Prop where
  | whole {n : Nat} {digits exponent : Bytes} : Digits n digits → Exponent exponent →
      Decimal (digits ++ exponent)
  | pointed {n : Nat} {whole fraction exponent : Bytes} : Digits n (whole ++ fraction) →
      Exponent exponent → Decimal (whole ++ '.'.toUInt8 :: (fraction ++ exponent))

/-- The letters of the word in order, each in either case. -/
def Word (word : String) (bytes : Bytes) : Prop :=
  List.Forall₂ (fun letter byte => byte = letter.toUInt8 ∨ byte = letter.toUpper.toUInt8)
    word.toList bytes

/-- A number of the floating point without its sign. -/
inductive Magnitude : Bytes → Prop where
  | decimal {bytes : Bytes} : Decimal bytes → Magnitude bytes
  | word {word : String} {bytes : Bytes} : word ∈ ["inf", "infinity", "nan"] → Word word bytes →
      Magnitude bytes

/-- A line that holds a number of the type. -/
inductive NumberLine : ScalarType → Bytes → Prop where
  | unsigned {line : Bytes} : Unsigned (2 ^ 64) line → NumberLine .unsigned line
  | signed {line : Bytes} : Signed (2 ^ 63) line → NumberLine .signed line
  | float {sign magnitude : Bytes} : Sign sign → Magnitude magnitude →
      NumberLine .float (sign ++ magnitude)

end Grammar

open Grammar

namespace Numeral

variable {limit n : Nat} {bytes : Bytes}

/-- The digits of the grammar are those of the decoder. -/
theorem isDigit_iff {byte : UInt8} : isDigit byte = true ↔ IsDigit byte := by
  simp [isDigit, IsDigit]

/-- The value of digits counts the last one as ones, and each one before ten times as much as the
one behind it. -/
theorem value_eq_ofDigits (bytes : Bytes) :
    value bytes = Nat.ofDigits 10 (bytes.reverse.map fun byte => byte.toNat - 48) := by
  induction bytes using List.reverseRecOn with
  | nil => rfl
  | append_singleton front byte ih =>
    have hfront : value (front ++ [byte]) = 10 * value front + (byte.toNat - 48) := by
      simp [value]
    rw [hfront, ih, List.reverse_concat, List.map_cons, Nat.ofDigits_cons]
    omega

/-- Digits are a numeral with a value. -/
theorem digits_iff : Digits n bytes ↔ isNumeral bytes = true ∧ value bytes = n := by
  have hnumeral : isNumeral bytes = true ↔ bytes ≠ [] ∧ ∀ byte ∈ bytes, IsDigit byte := by
    simp [isNumeral, isDigit_iff]
  rw [hnumeral, value_eq_ofDigits]
  constructor
  · intro h
    exact ⟨⟨h.ne_nil, h.isDigit⟩, h.value_eq⟩
  · rintro ⟨⟨hne, hdigit⟩, hvalue⟩
    exact ⟨hne, hdigit, hvalue⟩

/-- A numeral is read if its value is below the limit. -/
theorem below?_eq_some_iff_digits : below? limit bytes = some n ↔ Digits n bytes ∧ n < limit := by
  simp only [below?, valueByHalves_eq, digits_iff, Bool.and_eq_true, decide_eq_true_eq,
    Option.ite_none_right_eq_some, Option.some.injEq]
  constructor
  · rintro ⟨⟨hnumeral, hlimit⟩, rfl⟩
    exact ⟨⟨hnumeral, rfl⟩, hlimit⟩
  · rintro ⟨⟨hnumeral, rfl⟩, hlimit⟩
    exact ⟨⟨hnumeral, hlimit⟩, rfl⟩

/-- Digits start with no sign. -/
theorem ne_of_digits {byte sign : UInt8} {rest : Bytes} (h : Digits n (byte :: rest))
    (hsign : ¬ IsDigit sign) : byte ≠ sign := by
  rintro rfl
  exact hsign (h.isDigit byte List.mem_cons_self)

/-- What is read as an unsigned number. -/
theorem exists_unsigned?_iff : (∃ n, unsigned? limit bytes = some n) ↔ Unsigned limit bytes := by
  constructor
  · rintro ⟨n, h⟩
    cases bytes with
    | nil => cases h
    | cons sign rest =>
      by_cases hsign : sign = '+'.toUInt8
      · rw [unsigned?, if_pos hsign, below?_eq_some_iff_digits] at h
        subst hsign
        exact .plus h.1 h.2
      · rw [unsigned?, if_neg hsign, below?_eq_some_iff_digits] at h
        exact .bare h.1 h.2
  · intro h
    cases h with
    | @bare n digits hdigits hlimit =>
      cases bytes with
      | nil => exact absurd rfl hdigits.ne_nil
      | cons first rest =>
        have hfirst : first ≠ '+'.toUInt8 := ne_of_digits hdigits (by decide)
        rw [unsigned?, if_neg hfirst]
        exact ⟨n, below?_eq_some_iff_digits.mpr ⟨hdigits, hlimit⟩⟩
    | @plus n digits hdigits hlimit =>
      rw [unsigned?, if_pos rfl]
      exact ⟨n, below?_eq_some_iff_digits.mpr ⟨hdigits, hlimit⟩⟩

/-- What is read as a signed number. -/
theorem exists_signed?_iff : (∃ n, signed? limit bytes = some n) ↔ Signed limit bytes := by
  constructor
  · rintro ⟨n, h⟩
    cases bytes with
    | nil => cases h
    | cons sign rest =>
      by_cases hsign : sign = '-'.toUInt8
      · rw [signed?, if_pos hsign] at h
        cases hbelow : below? (limit + 1) rest with
        | none =>
          rw [hbelow] at h
          cases h
        | some m =>
          obtain ⟨hdigits, hlimit⟩ := below?_eq_some_iff_digits.mp hbelow
          subst hsign
          exact .negative hdigits (Nat.le_of_lt_succ hlimit)
      · rw [signed?, if_neg hsign, Option.map_eq_some_iff] at h
        obtain ⟨m, hm, -⟩ := h
        exact .positive (exists_unsigned?_iff.mp ⟨m, hm⟩)
  · intro h
    cases h with
    | positive hunsigned =>
      obtain ⟨n, hn⟩ := exists_unsigned?_iff.mpr hunsigned
      cases bytes with
      | nil => cases hn
      | cons first rest =>
        have hfirst : first ≠ '-'.toUInt8 := by
          cases hunsigned with
          | bare hdigits => exact ne_of_digits hdigits (by decide)
          | plus => decide
        rw [signed?, if_neg hfirst, hn]
        exact ⟨n, rfl⟩
    | @negative n digits hdigits hlimit =>
      rw [signed?, if_pos rfl, below?_eq_some_iff_digits.mpr ⟨hdigits, Nat.lt_succ_of_le hlimit⟩]
      exact ⟨_, rfl⟩

end Numeral

/-- What a class of items is taken from: all of them in front of the first other one. -/
theorem takeWhile_dropWhile_append {α : Type} {p : α → Bool} {front behind : List α}
    (hfront : ∀ a ∈ front, p a = true) (hbehind : ∀ a ∈ behind.head?, p a = false) :
    (front ++ behind).takeWhile p = front ∧ (front ++ behind).dropWhile p = behind := by
  rw [List.takeWhile_append_of_pos hfront, List.dropWhile_append_of_pos hfront]
  cases behind with
  | nil => simp
  | cons a rest => simp [hbehind a rfl]

/-- Every list is split in front of the first item that is not of a class. -/
theorem exists_takeWhile {α : Type} (p : α → Bool) (items : List α) :
    ∃ front behind, items = front ++ behind ∧ (∀ a ∈ front, p a = true) ∧
      ∀ a ∈ behind.head?, p a = false := by
  refine ⟨items.takeWhile p, items.dropWhile p, List.takeWhile_append_dropWhile.symm,
    fun a => List.mem_takeWhile_imp, fun a ha => ?_⟩
  have hfind : items.find? (fun a => !p a) = some a := by
    rw [List.find?_not_eq_head?_dropWhile]
    exact ha
  simpa using List.find?_some hfind

namespace Binary32

variable {bytes : Bytes}

/-- What stands behind a sign, or everything if there is none. -/
theorem exists_sign (rest : Bytes) :
    ∃ sign, Sign sign ∧ rest = sign ++
      if rest.head? = some '-'.toUInt8 || rest.head? = some '+'.toUInt8 then rest.drop 1
      else rest := by
  split
  · rename_i hsign
    cases rest with
    | nil => simp at hsign
    | cons first rest =>
      simp only [List.head?_cons, Option.some.injEq, Bool.or_eq_true, decide_eq_true_eq] at hsign
      rcases hsign with rfl | rfl
      · exact ⟨_, .minus, rfl⟩
      · exact ⟨_, .plus, rfl⟩
  · exact ⟨[], .none, rfl⟩

/-- What is read as an exponent. -/
theorem exists_readExponent?_iff : (∃ e, readExponent? bytes = some e) ↔ Exponent bytes := by
  constructor
  · rintro ⟨e, h⟩
    cases bytes with
    | nil => exact .none
    | cons mark rest =>
      obtain ⟨sign, hsign, hrest⟩ := exists_sign rest
      rw [readExponent?] at h
      dsimp only at h
      generalize (if rest.head? = some '-'.toUInt8 || rest.head? = some '+'.toUInt8 then
        rest.drop 1 else rest) = digits at h hrest
      by_cases hmark : (decide (mark = 'e'.toUInt8) || decide (mark = 'E'.toUInt8)) = true
      · rw [if_pos hmark] at h
        by_cases hnumeral : Numeral.isNumeral digits = true
        · rw [hrest]
          exact .some (by simpa using hmark) hsign (Numeral.digits_iff.mpr ⟨hnumeral, rfl⟩)
        · rw [if_neg hnumeral] at h
          cases h
      · rw [if_neg hmark] at h
        cases h
  · intro h
    cases h with
    | none => exact ⟨0, rfl⟩
    | @some n mark sign digits hmark hsign hdigits =>
      have hnumeral := (Numeral.digits_iff.mp hdigits).1
      obtain ⟨first, behind, hfirst⟩ := List.exists_cons_of_ne_nil hdigits.ne_nil
      have hminus : first ≠ '-'.toUInt8 := Numeral.ne_of_digits (hfirst ▸ hdigits) (by decide)
      have hplus : first ≠ '+'.toUInt8 := Numeral.ne_of_digits (hfirst ▸ hdigits) (by decide)
      have hmarked : (decide (mark = 'e'.toUInt8) || decide (mark = 'E'.toUInt8)) = true := by
        simpa using hmark
      rw [readExponent?, if_pos hmarked]
      cases hsign with
      | none => simp [hfirst, hminus, hplus, hfirst ▸ hnumeral]
      | plus => simp [hnumeral]
      | minus => simp [hnumeral]

/-- An exponent starts with no digit and no point. -/
theorem head?_of_exponent (h : Exponent bytes) :
    ∀ byte ∈ bytes.head?, Numeral.isDigit byte = false ∧ byte ≠ '.'.toUInt8 := by
  cases h with
  | none => nofun
  | some hmark _ _ =>
    rintro byte ⟨⟩
    rcases hmark with rfl | rfl
    · decide
    · decide

/-- Digits without a point behind them are read, and then the exponent. -/
theorem exists_readDecimal?_whole_iff {digits behind : Bytes}
    (hdigits : ∀ byte ∈ digits, Numeral.isDigit byte = true)
    (hbehind : ∀ byte ∈ behind.head?, Numeral.isDigit byte = false ∧ byte ≠ '.'.toUInt8) :
    (∃ d, readDecimal? (digits ++ behind) = some d) ↔ digits ≠ [] ∧ Exponent behind := by
  obtain ⟨htake, hdrop⟩ := takeWhile_dropWhile_append hdigits fun byte hbyte => (hbehind byte hbyte).1
  have hpoint : behind.head? ≠ some '.'.toUInt8 := fun hpoint => (hbehind _ hpoint).2 rfl
  simp [readDecimal?, htake, hdrop, hpoint, ← exists_readExponent?_iff]

/-- Digits with a point among them or beside them are read, and then the exponent. -/
theorem exists_readDecimal?_pointed_iff {whole fraction behind : Bytes}
    (hwhole : ∀ byte ∈ whole, Numeral.isDigit byte = true)
    (hfraction : ∀ byte ∈ fraction, Numeral.isDigit byte = true)
    (hbehind : ∀ byte ∈ behind.head?, Numeral.isDigit byte = false) :
    (∃ d, readDecimal? (whole ++ '.'.toUInt8 :: (fraction ++ behind)) = some d) ↔
      whole ++ fraction ≠ [] ∧ Exponent behind := by
  have hpoint : ∀ byte ∈ ('.'.toUInt8 :: (fraction ++ behind)).head?,
      Numeral.isDigit byte = false := by
    rintro byte ⟨⟩
    rfl
  obtain ⟨htake, hdrop⟩ := takeWhile_dropWhile_append hwhole hpoint
  obtain ⟨htake', hdrop'⟩ := takeWhile_dropWhile_append hfraction hbehind
  simp [readDecimal?, htake, hdrop, htake', hdrop', ← exists_readExponent?_iff]

/-- What is read as a decimal number. -/
theorem exists_readDecimal?_iff : (∃ d, readDecimal? bytes = some d) ↔ Grammar.Decimal bytes := by
  constructor
  · intro h
    obtain ⟨whole, behind, rfl, hwhole, hbehind⟩ := exists_takeWhile Numeral.isDigit bytes
    by_cases hpoint : behind.head? = some '.'.toUInt8
    · obtain ⟨tail, rfl⟩ := List.head?_eq_some_iff.mp hpoint
      obtain ⟨fraction, exponent, rfl, hfraction, hexponent⟩ :=
        exists_takeWhile Numeral.isDigit tail
      obtain ⟨hne, hread⟩ := (exists_readDecimal?_pointed_iff hwhole hfraction hexponent).mp h
      refine .pointed ⟨hne, fun byte hbyte => ?_, rfl⟩ hread
      rcases List.mem_append.mp hbyte with hbyte | hbyte
      · exact Numeral.isDigit_iff.mp (hwhole byte hbyte)
      · exact Numeral.isDigit_iff.mp (hfraction byte hbyte)
    · have hbehind : ∀ byte ∈ behind.head?, Numeral.isDigit byte = false ∧ byte ≠ '.'.toUInt8 := by
        rintro byte hbyte
        exact ⟨hbehind byte hbyte, fun hdot => hpoint (hdot ▸ hbyte)⟩
      obtain ⟨hne, hread⟩ := (exists_readDecimal?_whole_iff hwhole hbehind).mp h
      exact .whole ⟨hne, fun byte hbyte => Numeral.isDigit_iff.mp (hwhole byte hbyte), rfl⟩ hread
  · intro h
    cases h with
    | whole hdigits hexponent =>
      have hwhole := fun byte hbyte => Numeral.isDigit_iff.mpr (hdigits.isDigit byte hbyte)
      refine (exists_readDecimal?_whole_iff hwhole (head?_of_exponent hexponent)).mpr ?_
      exact ⟨hdigits.ne_nil, hexponent⟩
    | @pointed _ whole fraction _ hdigits hexponent =>
      have hall := fun byte hbyte => Numeral.isDigit_iff.mpr (hdigits.isDigit byte hbyte)
      have hwhole := fun byte hbyte => hall byte (List.mem_append_left fraction hbyte)
      have hfraction := fun byte hbyte => hall byte (List.mem_append_right whole hbyte)
      have hbehind := fun byte hbyte => (head?_of_exponent hexponent byte hbyte).1
      refine (exists_readDecimal?_pointed_iff hwhole hfraction hbehind).mpr ?_
      exact ⟨hdigits.ne_nil, hexponent⟩

/-- A letter of one of the words is meant by its two cases. -/
theorem toLower_eq_iff {letter : Char} (h : letter ∈ "infinityna".toList) (byte : UInt8) :
    letter = (Char.ofNat byte.toNat).toLower ↔
      byte = letter.toUInt8 ∨ byte = letter.toUpper.toUInt8 := by
  have hcases : ("infinityna".toList.all fun letter => (List.range 256).all fun n =>
      decide (letter = (Char.ofNat n).toLower ↔
        n = letter.toUInt8.toNat ∨ n = letter.toUpper.toUInt8.toNat)) = true := by
    decide +kernel
  simp only [List.all_eq_true, List.mem_range, decide_eq_true_eq] at hcases
  simp only [← UInt8.toNat_inj]
  exact hcases letter h byte.toNat byte.toNat_lt

/-- A word is meant whatever the cases of its letters. -/
theorem map_toLower_eq_iff {word : String}
    (h : (word.toList.all fun letter => "infinityna".toList.contains letter) = true) :
    bytes.map (fun b => (Char.ofNat b.toNat).toLower) = word.toList ↔ Word word bytes := by
  have hletters : word.toList = bytes.map (fun b => (Char.ofNat b.toNat).toLower) ↔
      List.Forall₂ (fun letter byte => letter = (Char.ofNat byte.toNat).toLower)
        word.toList bytes := by
    rw [← List.forall₂_map_right_iff (R := Eq), List.forall₂_eq_eq_eq]
  simp only [List.all_eq_true, List.contains_iff_mem] at h
  rw [eq_comm, hletters]
  constructor
  · intro hsame
    have hboth := (List.forall₂_and_left _ _).mpr ⟨h, hsame⟩
    exact hboth.imp fun _ byte hletter => (toLower_eq_iff hletter.1 byte).mp hletter.2
  · intro hword
    have hboth := (List.forall₂_and_left _ _).mpr ⟨h, hword⟩
    exact hboth.imp fun _ byte hletter => (toLower_eq_iff hletter.1 byte).mpr hletter.2

/-- What is read as a word. -/
theorem exists_readWord?_iff : (∃ m, readWord? bytes = some m) ↔
    ∃ word ∈ ["inf", "infinity", "nan"], Word word bytes := by
  have hinf := @map_toLower_eq_iff bytes "inf" (by decide)
  have hinfinity := @map_toLower_eq_iff bytes "infinity" (by decide)
  have hnan := @map_toLower_eq_iff bytes "nan" (by decide)
  simp only [List.mem_cons, List.not_mem_nil, or_false, exists_eq_or_imp, exists_eq_left, ← hinf,
    ← hinfinity, ← hnan, readWord?]
  split
  · rename_i hinfinite
    refine iff_of_true ⟨_, rfl⟩ ?_
    simp only [Bool.or_eq_true, decide_eq_true_eq] at hinfinite
    rw [← or_assoc]
    exact .inl hinfinite
  · rename_i hfinite
    simp only [Bool.or_eq_true, decide_eq_true_eq, not_or] at hfinite
    rw [or_iff_right hfinite.1, or_iff_right hfinite.2, ← Option.isSome_iff_exists]
    simp

/-- What is read without a sign. -/
theorem exists_readMagnitude?_iff : (∃ m, readMagnitude? bytes = some m) ↔ Magnitude bytes := by
  unfold readMagnitude?
  cases hdecimal : readDecimal? bytes with
  | some d =>
    exact iff_of_true ⟨_, rfl⟩ (.decimal (exists_readDecimal?_iff.mp ⟨d, hdecimal⟩))
  | none =>
    dsimp only
    rw [exists_readWord?_iff]
    constructor
    · rintro ⟨word, hmem, hword⟩
      exact .word hmem hword
    · intro h
      cases h with
      | decimal h =>
        obtain ⟨d, hd⟩ := exists_readDecimal?_iff.mpr h
        rw [hdecimal] at hd
        cases hd
      | word hmem hword => exact ⟨_, hmem, hword⟩

/-- Behind a plus sign a magnitude is read. -/
theorem read?_plus (body : Bytes) :
    read? ('+'.toUInt8 :: body) = (readMagnitude? body).map (ofMagnitude false) := by
  have hminus : '+'.toUInt8 ≠ '-'.toUInt8 := by decide
  simp only [read?, readMagnitude?, hminus, decide_true, decide_false, Bool.or_true, if_true]
  cases readDecimal? body <;> rfl

/-- A magnitude starts with a digit, a point or a letter, and so with no sign. -/
theorem ne_sign_of_magnitude {first : UInt8} {rest : Bytes} (h : Magnitude (first :: rest)) :
    first ≠ '+'.toUInt8 ∧ first ≠ '-'.toUInt8 := by
  have hdigit : ∀ {byte : UInt8}, IsDigit byte → byte ≠ '+'.toUInt8 ∧ byte ≠ '-'.toUInt8 := by
    intro byte hbyte
    constructor
    · rintro rfl
      exact absurd hbyte (by decide)
    · rintro rfl
      exact absurd hbyte (by decide)
  generalize hbytes : first :: rest = bytes at h
  cases h with
  | decimal h =>
    cases h with
    | @whole n digits exponent hdigits _ =>
      cases digits with
      | nil => exact absurd rfl hdigits.ne_nil
      | cons digit digits =>
        cases hbytes
        exact hdigit (hdigits.isDigit _ List.mem_cons_self)
    | @pointed n whole fraction exponent hdigits _ =>
      cases whole with
      | nil =>
        cases hbytes
        decide
      | cons digit whole =>
        cases hbytes
        exact hdigit (hdigits.isDigit _ List.mem_cons_self)
  | @word word _ hmem hword =>
    subst hbytes
    have hletters : (["inf", "infinity", "nan"].all fun word => word.toList.head?.all fun letter =>
        [letter.toUInt8, letter.toUpper.toUInt8].all fun byte =>
          byte ≠ '+'.toUInt8 && byte ≠ '-'.toUInt8) = true := by
      decide
    rw [Word] at hword
    generalize hchars : word.toList = chars at hword
    cases hword with
    | cons hletter _ =>
      have hhead := List.all_eq_true.mp hletters word hmem
      rw [hchars, List.head?_cons, Option.all_some] at hhead
      have hfirst := List.all_eq_true.mp hhead first (by simpa using hletter)
      simpa using hfirst

/-- What is read as a number of the floating point. -/
theorem exists_read?_iff : (∃ x, read? bytes = some x) ↔ NumberLine .float bytes := by
  constructor
  · rintro ⟨x, h⟩
    cases bytes with
    | nil => cases h
    | cons first rest =>
      by_cases hminus : first = '-'.toUInt8
      · subst hminus
        rw [read?_minus, Option.map_eq_some_iff] at h
        obtain ⟨m, hm, -⟩ := h
        exact .float .minus (exists_readMagnitude?_iff.mp ⟨m, hm⟩)
      · by_cases hplus : first = '+'.toUInt8
        · subst hplus
          rw [read?_plus, Option.map_eq_some_iff] at h
          obtain ⟨m, hm, -⟩ := h
          exact .float .plus (exists_readMagnitude?_iff.mp ⟨m, hm⟩)
        · rw [read?_cons rest hplus hminus, Option.map_eq_some_iff] at h
          obtain ⟨m, hm, -⟩ := h
          exact .float .none (exists_readMagnitude?_iff.mp ⟨m, hm⟩)
  · intro h
    cases h with
    | @float sign magnitude hsign hmagnitude =>
      obtain ⟨m, hm⟩ := exists_readMagnitude?_iff.mpr hmagnitude
      cases hsign with
      | plus => exact ⟨_, (read?_plus magnitude).trans (congrArg _ hm)⟩
      | minus => exact ⟨_, (read?_minus magnitude).trans (congrArg _ hm)⟩
      | none =>
        cases magnitude with
        | nil => cases hm
        | cons first rest =>
          obtain ⟨hplus, hminus⟩ := ne_sign_of_magnitude hmagnitude
          exact ⟨_, (read?_cons rest hplus hminus).trans (congrArg _ hm)⟩

end Binary32

/-- The decoder reads a number from just the lines that hold one. -/
theorem Parse.exists_numberOf?_iff {type : ScalarType} {line : Bytes} :
    (∃ v, numberOf? type line = some v) ↔ NumberLine type line := by
  have hmap {α : Type} (read : Option α) (f : α → Value) :
      (∃ v, read.map f = some v) ↔ ∃ a, read = some a := by
    cases read <;> simp
  constructor
  · intro h
    cases type with
    | unsigned => exact .unsigned (Numeral.exists_unsigned?_iff.mp ((hmap _ _).mp h))
    | signed => exact .signed (Numeral.exists_signed?_iff.mp ((hmap _ _).mp h))
    | float => exact Binary32.exists_read?_iff.mp ((hmap _ _).mp h)
    | _ =>
      obtain ⟨v, hv⟩ := h
      cases hv
  · intro h
    cases h with
    | unsigned h => exact (hmap _ _).mpr (Numeral.exists_unsigned?_iff.mpr h)
    | signed h => exact (hmap _ _).mpr (Numeral.exists_signed?_iff.mpr h)
    | float hsign h => exact (hmap _ _).mpr (Binary32.exists_read?_iff.mpr (.float hsign h))

end StoreClient

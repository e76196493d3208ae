import StoreClient.Proofs.Grammar

/-!
# The verdict on a scalar

Once the body of a scalar was taken, the decoder judges it: it is a packet error, which breaks
the batch, or it has a flaw, or it has none. This file proves that the verdict is the one that
the grammar gives, for every type, size and body.
-/

namespace StoreClient

namespace ReplyCode

/-- The codes from zero to eleven are known, and no others. -/
theorem ofNumber?_eq_none_iff {n : Nat} : ofNumber? n = none ↔ 11 < n := by
  constructor
  · intro h
    have hknown : ∀ n ≤ 11, ofNumber? (n : Nat) ≠ none := by decide
    apply Nat.lt_of_not_le
    intro hle
    exact hknown n hle h
  · intro h
    rw [ofNumber?, List.find?_eq_none]
    intro code _
    have hnumber : code.number ≤ 11 := by cases code <;> decide
    simp
    omega

/-- The packet error has number four. -/
theorem ofNumber?_eq_packet_iff {n : Nat} : ofNumber? n = some .packet ↔ n = 4 := by
  constructor
  · intro h
    have hfound := List.find?_some h
    have hnumber : packet.number = 4 := rfl
    simp at hfound
    omega
  · rintro rfl
    rfl

end ReplyCode

namespace Parse

/-- The verdict on a scalar whose body was read: no packet error, and a flaw where there is
one. -/
structure Judges (type : ScalarType) (size : Nat) (body : Bytes) (flawed : Flawed) : Prop where
  not_packetError : ¬IsPacketError type body
  flaw_eq_none_iff : flawed.2 = none ↔ ¬IsFlawed type size body

variable {type : ScalarType} {size : Nat} {body : Bytes}

/-- A type that the client does not implement is always flawed. -/
theorem judges_notImplemented (h : type.isSupported = false) :
    Judges type size body (notImplemented type) := by
  constructor
  · rintro ⟨rfl, _⟩
    cases h
  · have hforeign : type ∈ Grammar.foreignTypes := by
      rw [← not_not (a := type ∈ Grammar.foreignTypes), ← Grammar.isSupported_iff, h]
      decide
    have hflawed : IsFlawed type size body := .unsupported hforeign
    simp [notImplemented, hflawed]

/-- A payload of bytes is judged as its type. -/
theorem judges_sizedValue (h : type.isSized = true) :
    Judges type size body (sizedValue type body) := by
  cases type with
  | string =>
    refine ⟨nofun, ?_⟩
    rw [IsFlawed.string_iff]
    cases hdecode : Utf8.decode? body with
    | none => simp [sizedValue, hdecode, malformed]
    | some text => simp [sizedValue, hdecode]
  | binary => exact ⟨nofun, by simp [sizedValue, IsFlawed.not_binary]⟩
  | json => exact judges_notImplemented rfl
  | _ => cases h

/-- A number is judged by its line and its size. -/
theorem judges_number (h : type.IsNumber) : ∃ flawed,
    lineValue type size body = pure flawed ∧ Judges type size body flawed := by
  have hsupported : type.isSupported = true := by rcases h with rfl | rfl | rfl <;> rfl
  have hcode : type ≠ .responseCode := by rcases h with rfl | rfl | rfl <;> decide
  have hpacket : ¬IsPacketError type body := fun hpacket => hcode hpacket.1
  rw [lineValue, hsupported, if_neg hcode]
  cases hnumber : numberOf? type body with
  | none =>
    refine ⟨_, rfl, hpacket, ?_⟩
    simp [IsFlawed.number_iff h, hnumber, malformed]
  | some value =>
    refine ⟨_, rfl, hpacket, ?_⟩
    simp [IsFlawed.number_iff h, hnumber, sizeFlaw]

/-- A number above the largest one that is kept stays above every code. -/
theorem ofNumber?_capped_eq_none_iff (n : Nat) :
    ReplyCode.ofNumber? (min n largestCode : Nat) = none ↔ 11 < n := by
  have hlarge : 11 < largestCode := by decide
  rw [ReplyCode.ofNumber?_eq_none_iff]
  omega

/-- A number above the largest one that is kept is no packet error. -/
theorem ofNumber?_capped_eq_packet_iff (n : Nat) :
    ReplyCode.ofNumber? (min n largestCode : Nat) = some .packet ↔ n = 4 := by
  have hlarge : 11 < largestCode := by decide
  rw [ReplyCode.ofNumber?_eq_packet_iff]
  omega

/-- A code is known or not, and has its size or not; a packet error breaks the batch. -/
theorem judges_code : IsPacketError .responseCode body ∧
      lineValue .responseCode size body = fail .packetError ∨
    ∃ flawed, lineValue .responseCode size body = pure flawed ∧
      Judges .responseCode size body flawed := by
  have hline : lineValue .responseCode size body = responseCode size body := rfl
  rw [hline, responseCode, Numeral.valueByHalves_eq]
  by_cases hnumeral : Numeral.isNumeral body = true
  · rw [if_pos hnumeral]
    dsimp only
    have hnone := ofNumber?_capped_eq_none_iff (Numeral.value body)
    have hpacket := ofNumber?_capped_eq_packet_iff (Numeral.value body)
    cases hcode : ReplyCode.ofNumber? (min (Numeral.value body) largestCode : Nat) with
    | none =>
      right
      have hunknown := hnone.mp hcode
      refine ⟨_, rfl, ?_, ?_⟩
      · intro hpacket
        obtain ⟨-, -, hvalue⟩ := isPacketError_iff.mp hpacket
        omega
      · simp [IsFlawed.code_iff, hnumeral, hunknown]
    | some code =>
      by_cases hbreaks : code = .packet
      · subst hbreaks
        exact .inl ⟨isPacketError_iff.mpr ⟨rfl, hnumeral, hpacket.mp hcode⟩, rfl⟩
      · right
        have hknown : ¬11 < Numeral.value body := by
          rw [← hnone, hcode]
          nofun
        have hvalue : Numeral.value body ≠ 4 := by
          rw [Ne, ← hpacket, hcode]
          simpa using hbreaks
        refine ⟨(.code code, sizeFlaw size body), ?_, ?_, ?_⟩
        · cases code <;> first | rfl | exact absurd rfl hbreaks
        · exact fun hpacket => hvalue (isPacketError_iff.mp hpacket).2.2
        · simp [IsFlawed.code_iff, hnumeral, hknown, sizeFlaw]
  · right
    rw [if_neg hnumeral]
    refine ⟨_, rfl, ?_, ?_⟩
    · exact fun hpacket => hnumeral (isPacketError_iff.mp hpacket).2.1
    · simp [IsFlawed.code_iff, hnumeral]

/-- A line that holds a scalar is judged, unless it is a packet error. -/
theorem judges_lineValue (h : type.isSized = false) :
    IsPacketError type body ∧ lineValue type size body = fail .packetError ∨
    ∃ flawed, lineValue type size body = pure flawed ∧ Judges type size body flawed := by
  cases type with
  | responseCode => exact judges_code
  | signedSmall => exact .inr ⟨_, rfl, judges_notImplemented rfl⟩
  | unsignedSmall => exact .inr ⟨_, rfl, judges_notImplemented rfl⟩
  | signed => exact .inr (judges_number (.inr (.inl rfl)))
  | unsigned => exact .inr (judges_number (.inl rfl))
  | float => exact .inr (judges_number (.inr (.inr rfl)))
  | _ => cases h

end Parse

end StoreClient

import StoreClient.Number.Numeral

/-!
# Texts read back

The bytes of a text are read as that text, by the strict reading and by the lossy one:
well-formed UTF-8 has no piece that the lossy reading would replace. A byte below 128
stands for the character of that number, so the newlines and digits among the bytes are
those of the text. The lossy reading of any bytes makes up no such character either: it
replaces pieces by U+FFFD alone.
-/

namespace StoreClient.Utf8

/-- The strict reading of a text's bytes is the text. -/
theorem decode?_encode (text : String) : decode? (encode text) = some text := by
  have hbytes : (encode text).toByteArray = text.toByteArray := by
    apply ByteArray.ext
    simp [encode]
  rw [decode?, hbytes, String.fromUTF8?, dif_pos text.isValidUTF8]
  rfl

/-- Bytes that are read as a text are its bytes. -/
theorem encode_of_decode? {bytes : Bytes} {text : String} (h : decode? bytes = some text) :
    encode text = bytes := by
  unfold decode? String.fromUTF8? at h
  split at h
  · cases h
    change bytes.toByteArray.data.toList = bytes
    simp
  · cases h

/-- Bytes are no text if they are the bytes of none. -/
theorem decode?_eq_none_iff {bytes : Bytes} :
    decode? bytes = none ↔ ∀ text, encode text ≠ bytes := by
  constructor
  · rintro h text rfl
    rw [decode?_encode] at h
    cases h
  · intro h
    cases hdecode : decode? bytes with
    | none => rfl
    | some text => exact absurd (encode_of_decode? hdecode) (h text)

/-- A text is sent character by character. -/
theorem encode_eq (text : String) :
    encode text = text.toList.flatMap String.utf8EncodeChar := by
  have hbytes : text.toByteArray = text.toList.utf8Encode := by
    simp
  rw [encode, hbytes, List.utf8Encode]
  simp

/-- Two texts in a row are sent in a row. -/
theorem encode_append (front behind : String) :
    encode (front ++ behind) = encode front ++ encode behind := by
  simp [encode_eq]

/-- Texts with the same bytes are the same. -/
theorem encode_inj {text other : String} (h : encode text = encode other) : text = other := by
  have hread := decode?_encode text
  rw [h, decode?_encode] at hread
  exact (Option.some.inj hread).symm

/-- A character is found at the front of its bytes. -/
theorem firstChar?_encodeChar (c : Char) (rest : Bytes) :
    firstChar? (String.utf8EncodeChar c ++ rest) = some c := by
  have hlength : (String.utf8EncodeChar c).length ≤ 4 := by
    rw [String.length_utf8EncodeChar]
    exact c.utf8Size_le_four
  rw [firstChar?, List.take_append, List.take_of_length_le hlength, List.toByteArray_append]
  exact ByteArray.utf8DecodeChar?_utf8EncodeChar_append

/-- A character that is found at the front has its bytes there. -/
theorem eq_append_of_firstChar? {bytes : Bytes} {c : Char} (h : firstChar? bytes = some c) :
    ∃ rest, bytes = String.utf8EncodeChar c ++ rest := by
  obtain ⟨tail, htail⟩ := ByteArray.exists_of_utf8DecodeChar?_eq_some h
  have hfront : bytes.take 4 = String.utf8EncodeChar c ++ tail.data.toList := by
    have hlist := congrArg (fun array : ByteArray => array.data.toList) htail
    simpa using hlist
  refine ⟨tail.data.toList ++ bytes.drop 4, ?_⟩
  rw [← List.append_assoc, ← hfront, List.take_append_drop]

/-- The lossy reading goes on behind the bytes of a character that it finds. -/
theorem lossyChars_append (c : Char) (rest : Bytes) :
    lossyChars (String.utf8EncodeChar c ++ rest) = c :: lossyChars rest := by
  have hfirst := firstChar?_encodeChar c rest
  have hlength := String.length_utf8EncodeChar c
  have hpos := c.utf8Size_pos
  cases hbytes : String.utf8EncodeChar c with
  | nil =>
    rw [hbytes, List.length_nil] at hlength
    omega
  | cons b tail =>
    rw [hbytes, List.cons_append] at hfirst
    rw [hbytes, List.length_cons] at hlength
    have htail : c.utf8Size - 1 = tail.length := by omega
    rw [List.cons_append, lossyChars, hfirst]
    simp only [htail, List.drop_left]

/-- Induction on the pieces of the lossy reading: each is a character that stands in the
bytes, or one that is replaced. -/
theorem lossyInduction {motive : Bytes → Prop} (nil : motive [])
    (found : ∀ c rest, motive rest → motive (String.utf8EncodeChar c ++ rest))
    (replaced : ∀ b behind k, lossyChars (b :: behind) = '\uFFFD' :: lossyChars (behind.drop k) →
      motive (behind.drop k) → motive (b :: behind)) (bytes : Bytes) : motive bytes := by
  induction hlength : bytes.length using Nat.strongRecOn generalizing bytes with
  | ind n ih =>
    subst hlength
    cases bytes with
    | nil => exact nil
    | cons b behind =>
      cases hfirst : firstChar? (b :: behind) with
      | some c =>
        obtain ⟨rest, hrest⟩ := eq_append_of_firstChar? hfirst
        rw [hrest] at ih ⊢
        refine found c rest (ih rest.length ?_ rest rfl)
        have hpos := c.utf8Size_pos
        rw [List.length_append, String.length_utf8EncodeChar]
        omega
      | none =>
        refine replaced b behind (malformedTail b behind) (by rw [lossyChars, hfirst])
          (ih _ ?_ _ rfl)
        rw [List.length_drop, List.length_cons]
        omega

/-- The lossy reading of well-formed bytes gives their characters. -/
theorem lossyChars_flatMap (chars : List Char) :
    lossyChars (chars.flatMap String.utf8EncodeChar) = chars := by
  induction chars with
  | nil => rw [List.flatMap_nil, lossyChars]
  | cons c chars ih => rw [List.flatMap_cons, lossyChars_append, ih]

/-- A lossy reading that replaced nothing has exactly the bytes that were read. -/
theorem flatMap_lossyChars {bytes : Bytes} (h : '\uFFFD' ∉ lossyChars bytes) :
    (lossyChars bytes).flatMap String.utf8EncodeChar = bytes := by
  induction bytes using lossyInduction with
  | nil =>
    rw [lossyChars]
    rfl
  | found c rest ih =>
    rw [lossyChars_append, List.mem_cons, not_or] at h
    rw [lossyChars_append, List.flatMap_cons, ih h.2]
  | replaced b behind k hchars ih =>
    rw [hchars] at h
    exact absurd List.mem_cons_self h

/-- The lossy reading of a text's bytes is the text. -/
theorem decodeLossy_encode (text : String) : decodeLossy (encode text) = text := by
  rw [decodeLossy, encode_eq, lossyChars_flatMap, String.ofList_toList]

/-- A byte below 128 is among the bytes of a character when it is that character. -/
theorem mem_encodeChar_iff {b : UInt8} (hb : b.toNat < 128) (c : Char) :
    b ∈ String.utf8EncodeChar c ↔ c.toNat = b.toNat := by
  have hval : c.val.toNat = c.toNat := rfl
  simp only [String.utf8EncodeChar, hval]
  split
  · simp [← UInt8.toNat_inj]
    omega
  · split
    · simp [← UInt8.toNat_inj]
      omega
    · split
      · simp [← UInt8.toNat_inj]
        omega
      · simp [← UInt8.toNat_inj]
        omega

/-- A byte below 128 is among the bytes of a text when its character is in the text. -/
theorem mem_encode_iff {b : UInt8} (hb : b.toNat < 128) (text : String) :
    b ∈ encode text ↔ ∃ c ∈ text.toList, c.toNat = b.toNat := by
  simp only [encode_eq, List.mem_flatMap, mem_encodeChar_iff hb]

/-- Without a newline in the text there is none among its bytes. -/
theorem newline_not_mem_encode {text : String} (h : '\n' ∉ text.toList) : 10 ∉ encode text := by
  rw [mem_encode_iff (by decide)]
  rintro ⟨c, hc, hval⟩
  have hnewline : c = '\n' := Char.ext (UInt32.toNat_inj.mp hval)
  exact h (hnewline ▸ hc)

/-- Bytes that are all digits come from a text that is all digits. -/
theorem isDigit_of_isNumeral_encode {text : String} (h : Numeral.isNumeral (encode text) = true) :
    text ≠ "" ∧ ∀ c ∈ text.toList, c.isDigit = true := by
  simp only [Numeral.isNumeral, Bool.and_eq_true, List.all_eq_true] at h
  constructor
  · rintro rfl
    simp [encode] at h
  · intro c hc
    obtain ⟨b, hb⟩ := List.exists_mem_of_ne_nil _ (String.utf8EncodeChar_ne_nil (c := c))
    have hdigit := h.2 b (encode_eq text ▸ List.mem_flatMap.mpr ⟨c, hc, hb⟩)
    simp only [Numeral.isDigit, Bool.and_eq_true, decide_eq_true_eq,
      UInt8.le_iff_toNat_le] at hdigit
    have hval := (mem_encodeChar_iff (by simp at hdigit; omega) c).mp hb
    have hnumber : c.val.toNat = b.toNat := hval
    simp [Char.isDigit, UInt32.le_iff_toNat_le, hnumber] at hdigit ⊢
    omega

/-- A character below 128 in the lossy reading is among the bytes. -/
theorem exists_mem_of_mem_lossyChars {bytes : Bytes} {c : Char} (hc : c.toNat < 128)
    (h : c ∈ lossyChars bytes) : ∃ b ∈ bytes, b.toNat = c.toNat := by
  induction bytes using lossyInduction with
  | nil =>
    rw [lossyChars] at h
    cases h
  | found first rest ih =>
    rw [lossyChars_append] at h
    rcases List.mem_cons.mp h with rfl | hrest
    · have hbyte : (UInt8.ofNat c.toNat).toNat = c.toNat := by
        rw [UInt8.toNat_ofNat']
        omega
      have hmem := (mem_encodeChar_iff (b := UInt8.ofNat c.toNat) (by omega) c).mpr hbyte.symm
      exact ⟨_, List.mem_append_left rest hmem, hbyte⟩
    · obtain ⟨b, hb, hval⟩ := ih hrest
      exact ⟨b, List.mem_append_right _ hb, hval⟩
  | replaced b behind k hchars ih =>
    rw [hchars] at h
    rcases List.mem_cons.mp h with rfl | hrest
    · exact absurd hc (by decide)
    · obtain ⟨found, hfound, hval⟩ := ih hrest
      exact ⟨found, List.mem_cons_of_mem b (List.mem_of_mem_drop hfound), hval⟩

/-- The lossy reading makes up no newline. -/
theorem newline_not_mem_decodeLossy {bytes : Bytes} (h : 10 ∉ bytes) :
    '\n' ∉ (decodeLossy bytes).toList := by
  rw [decodeLossy, String.toList_ofList]
  intro hmem
  obtain ⟨b, hb, hval⟩ := exists_mem_of_mem_lossyChars (by decide) hmem
  have hnewline : b = 10 := UInt8.toNat_inj.mp hval
  exact h (hnewline ▸ hb)

/-- A digit is sent as a single byte. -/
theorem encodeChar_of_isDigit {c : Char} (h : c.isDigit = true) :
    String.utf8EncodeChar c = [c.toUInt8] := by
  have hrange : 48 ≤ c.val.toNat ∧ c.val.toNat ≤ 57 := by
    simpa [Char.isDigit, UInt32.le_iff_toNat_le] using h
  have hsize : c.utf8Size = 1 := by
    rw [Char.utf8Size_eq_one_iff, UInt32.le_iff_toNat_le]
    exact Nat.le_trans hrange.2 (by decide)
  exact String.utf8EncodeChar_eq_singleton hsize

/-- That byte is a digit. -/
theorem isDigit_of_mem_encodeChar {c : Char} (hc : c.isDigit = true) {b : UInt8}
    (hb : b ∈ String.utf8EncodeChar c) : Numeral.isDigit b = true := by
  have hrange : 48 ≤ c.val.toNat ∧ c.val.toNat ≤ 57 := by
    simpa [Char.isDigit, UInt32.le_iff_toNat_le] using hc
  rw [encodeChar_of_isDigit hc, List.mem_singleton] at hb
  have hval : b.toNat = c.val.toNat := by
    rw [hb]
    change c.val.toUInt8.toNat = c.val.toNat
    rw [UInt32.toNat_toUInt8]
    omega
  rw [← hval] at hrange
  simpa [Numeral.isDigit, UInt8.le_iff_toNat_le] using hrange

/-- Digits are sent byte by byte. -/
theorem encode_of_isDigit {chars : List Char} (h : ∀ c ∈ chars, c.isDigit = true) :
    encode (String.ofList chars) = chars.map Char.toUInt8 := by
  rw [encode_eq, String.toList_ofList]
  induction chars with
  | nil => rfl
  | cons c chars ih =>
    have hc := encodeChar_of_isDigit (h c List.mem_cons_self)
    have hchars := ih fun c' hc' => h c' (List.mem_cons_of_mem c hc')
    rw [List.flatMap_cons, hc, hchars, List.map_cons, List.singleton_append]

/-- The text of a number is sent as its numeral. -/
theorem encode_toString (n : Nat) : encode (toString n) = Numeral.digits n :=
  encode_of_isDigit fun _ hc => Nat.isDigit_of_mem_toDigits (by decide) (by decide) hc

/-- The text of an integer is sent as its numeral, with a sign below zero. -/
theorem encode_toString_int (n : Int) : encode (toString n) = Numeral.signedDigits n := by
  cases n with
  | ofNat n =>
    have hsign : ¬ Int.ofNat n < 0 := by simp
    rw [Numeral.signedDigits, if_neg hsign]
    exact encode_toString n
  | negSucc n =>
    have htext : toString (Int.negSucc n) = "-" ++ toString (n + 1) := rfl
    rw [htext, encode_append, encode_toString, Numeral.signedDigits,
      if_pos (Int.negSucc_lt_zero n)]
    rfl

/-- Bytes that are read as digits alone are a numeral. -/
theorem isNumeral_of_isDigit_decodeLossy {bytes : Bytes} (hne : decodeLossy bytes ≠ "")
    (h : ∀ c ∈ (decodeLossy bytes).toList, c.isDigit = true) :
    Numeral.isNumeral bytes = true := by
  rw [decodeLossy, String.toList_ofList] at h
  have hbytes := flatMap_lossyChars fun hmem => absurd (h _ hmem) (by decide)
  have hnonempty : bytes.isEmpty = false := by
    rw [List.isEmpty_eq_false_iff]
    rintro rfl
    exact hne (by rw [decodeLossy, lossyChars, String.ofList_nil])
  have hdigits : bytes.all Numeral.isDigit = true := by
    rw [List.all_eq_true, ← hbytes]
    intro b hb
    obtain ⟨c, hc, hmem⟩ := List.mem_flatMap.mp hb
    exact isDigit_of_mem_encodeChar (h c hc) hmem
  rw [Numeral.isNumeral, hnonempty, hdigits]
  rfl

end StoreClient.Utf8

import StoreClient.Proofs.Recognition
import StoreClient.Proofs.RoundTrip
import StoreClient.Proofs.WellFormed

/-!
# Decoding and sending again

The decoder takes many spellings of a batch: leading zeros and plus signs, elements that repeat
their tag, error texts that are no UTF-8. What it makes of them can be sent, and then it has one
spelling, which is decoded to the same entries. Some values that arrive cannot be sent back as they
are: what is not a number, arrays of response codes, and flat arrays, whose items are sent without
their tags. `Value.Resendable` leaves them out.
-/

namespace StoreClient

namespace Value

/-- Every text, every byte string and every array in the value is of a size that can be
announced. -/
inductive Sized : Value → Prop where
  | scalar {v : Value} : v.isArray = false →
      (∀ bytes, v.bytes? = some bytes → bytes.length < Numeral.bound) → Sized v
  | array {shape : ArrayShape} {items : List Value} : items.length < Numeral.bound →
      (∀ item ∈ items, Sized item) → Sized (.array shape items)

/-- The value holds no flat array but empty ones, no array of response codes, and no float that is
not a number. Its error texts are of a size that can be announced, as any text in memory is. -/
inductive Resendable : Value → Prop where
  | scalar {v : Value} : v.isArray = false → (∀ x, v = .float x → x.isNaN = false) →
      (∀ text, v = .errorText text → (Utf8.encode text).length < Numeral.bound) → Resendable v
  | array {shape : ArrayShape} {items : List Value} : (shape = .flat → items = []) →
      shape.element? ≠ some .responseCode → (∀ item ∈ items, Resendable item) →
      Resendable (.array shape items)

end Value

namespace Parse.Sizes

open Grammar

/-- A size is below the bound. -/
theorem count (what : String) : Ensures (Parse.count what) (· < Numeral.bound) := by
  intro bytes n rest hok
  obtain ⟨digits, hnum, -⟩ := count_sound hok
  exact hnum.lt_bound

/-- A payload is as long as its size. -/
theorem payload (n : Nat) : Ensures (Parse.payload n) fun body => body.length = n :=
  fun _ _ _ hok => (payload_sound hok).1

/-- A payload of bytes. -/
theorem sizedValue (type : ScalarType) {payload : Bytes} (h : payload.length < Numeral.bound) :
    (Parse.sizedValue type payload).1.Sized := by
  unfold Parse.sizedValue
  split
  · split
    · rename_i text hdecode
      refine .scalar rfl ?_
      rintro _ ⟨⟩
      rwa [Utf8.encode_of_decode? hdecode]
    · refine .scalar rfl ?_
      rintro _ ⟨⟩
      exact h
  · refine .scalar rfl ?_
    rintro _ ⟨⟩
    exact h
  · exact .scalar rfl nofun

/-- A number holds no text. -/
theorem sized_of_numberOf? {type : ScalarType} {text : Bytes} {v : Value}
    (h : numberOf? type text = some v) : v.Sized := by
  unfold numberOf? at h
  split at h
  · obtain ⟨n, _, rfl⟩ := Option.map_eq_some_iff.mp h
    exact .scalar rfl nofun
  · obtain ⟨n, _, rfl⟩ := Option.map_eq_some_iff.mp h
    exact .scalar rfl nofun
  · obtain ⟨x, _, rfl⟩ := Option.map_eq_some_iff.mp h
    exact .scalar rfl nofun
  · cases h

/-- A response code or error text. -/
theorem responseCode (size : Nat) (text : Bytes) :
    Ensures (Parse.responseCode size text) fun flawed => flawed.1.Sized := by
  unfold Parse.responseCode
  split
  · dsimp only
    split
    · exact .fail _
    · exact .pure (.scalar rfl nofun)
    · exact .pure (.scalar rfl nofun)
  · exact .pure (.scalar rfl nofun)

/-- A line that holds a scalar. -/
theorem lineValue (type : ScalarType) (size : Nat) (text : Bytes) :
    Ensures (Parse.lineValue type size text) fun flawed => flawed.1.Sized := by
  unfold Parse.lineValue
  split
  · exact .pure (.scalar rfl nofun)
  · split
    · exact responseCode size text
    · split
      · rename_i hnumber
        exact .pure (sized_of_numberOf? hnumber)
      · exact .pure (.scalar rfl nofun)

/-- The body of a scalar. -/
theorem scalarBody (type : ScalarType) {size : Nat} (h : size < Numeral.bound) :
    Ensures (Parse.scalarBody type size) fun flawed => flawed.1.Sized := by
  unfold Parse.scalarBody
  split
  · refine (payload size).bind fun body hbody => .pure ?_
    exact sizedValue type (hbody ▸ h)
  · exact .behind fun text => lineValue type size text

/-- A scalar. -/
theorem scalar (type : ScalarType) :
    Ensures (Parse.scalar type) fun flawed => flawed.1.Sized :=
  (count _).bind fun _ hsize => scalarBody type hsize

/-- A scalar inside an array. -/
theorem unflawed {parser : Parse Flawed} (h : Ensures parser fun flawed => flawed.1.Sized) :
    Ensures (Parse.unflawed parser) Value.Sized := by
  refine h.bind fun flawed hflawed => ?_
  obtain ⟨v, flaw⟩ := flawed
  cases flaw with
  | none => exact .pure hflawed
  | some e => exact .fail e

/-- The size of an element. -/
theorem elementSize (element : ScalarType) : Ensures (Parse.elementSize element) fun size =>
    ∀ n, size = some n → n < Numeral.bound := by
  intro bytes size rest hok
  rcases elementSize_sound hok with ⟨rfl, -⟩ | ⟨n, digits, rfl, hnum, -⟩
  · nofun
  · rintro _ ⟨⟩
    exact hnum.lt_bound

/-- The length of an array. -/
theorem arrayHeader (kind : ArrayKind) :
    Ensures (Parse.arrayHeader kind) fun announced => announced.2 < Numeral.bound := by
  rintro bytes ⟨shape, count⟩ rest hok
  obtain ⟨header, -, hheader, -⟩ := arrayHeader_sound hok
  cases hheader <;> exact Num.lt_bound ‹_›

/-- An element of a typed array. -/
theorem typedElement (element : ScalarType) (nonNull : Bool) :
    Ensures (Parse.typedElement element nonNull) Value.Sized := by
  refine (elementSize element).bind fun size hsize => ?_
  cases size with
  | none =>
    dsimp only
    split
    · exact .fail _
    · exact .pure (.scalar rfl nofun)
  | some size => exact unflawed (scalarBody element (hsize size rfl))

/-- An item of a flat array. -/
theorem flatItem (index : Nat) : Ensures (Parse.flatItem index) Value.Sized := by
  refine .behind fun type => ?_
  cases type with
  | scalar type => exact unflawed (scalar type)
  | array kind => exact .fail _

/-- An item without a tag. -/
theorem anyItem : Ensures Parse.anyItem Value.Sized := by
  refine (count _).bind fun size hsize => (payload size).bind fun body hbody => .pure ?_
  have hlength : body.length < Numeral.bound := hbody ▸ hsize
  unfold textOrBinary
  split
  · rename_i text hdecode
    refine .scalar rfl ?_
    rintro _ ⟨⟩
    rwa [Utf8.encode_of_decode? hdecode]
  · refine .scalar rfl ?_
    rintro _ ⟨⟩
    exact hlength

/-- An array, by induction on the levels of arrays that it has room for. -/
theorem array (room : Nat) (kind : ArrayKind) : Ensures (Parse.array room kind) Value.Sized := by
  induction room generalizing kind with
  | zero => exact .fail _
  | succ room ih =>
    have hitem (shape : ArrayShape) (index : Nat) :
        Ensures (arrayItem room shape index) Value.Sized := by
      cases shape with
      | nested =>
        refine .behind fun type => ?_
        cases type with
        | scalar type => exact unflawed (scalar type)
        | array kind => exact ih kind
      | flat => exact flatItem index
      | any => exact anyItem
      | typed element nonNull => exact typedElement element nonNull
    rw [array_succ]
    refine (arrayHeader kind).bind fun announced hcount => ?_
    refine (Ensures.repeated (hitem announced.1) announced.2).bind fun items hitems => .pure ?_
    exact .array (hitems.1 ▸ hcount) hitems.2

/-- An entry of a batch. -/
theorem entry : Ensures Parse.entry fun entry => entry.value.Sized := by
  refine .behind fun declared => ?_
  cases declared with
  | scalar type => exact (scalar type).bind fun flawed hflawed => .pure hflawed
  | array kind => exact (array maxDepth kind).bind fun v hv => .pure hv

end Parse.Sizes

/-- An entry without a local error holds something that was read. -/
theorem Parse.Ensures.presentEntry :
    Ensures Parse.entry fun entry => entry.error = none → entry.value.isPresent = true := by
  refine behind fun declared => ?_
  cases declared with
  | scalar type =>
    refine (scalar type).bind fun flawed hflawed => pure fun hnone => ?_
    exact (hflawed.scalar (Option.map_eq_none_iff.mp hnone)).present
  | array kind =>
    refine (array maxDepth kind).bind fun v hv => pure fun _ => ?_
    cases v with
    | array => rfl
    | _ => cases hv.1

/-- A text or byte string of a size that can be announced. -/
theorem Value.Sized.length_lt {v : Value} {bytes : Bytes} (h : v.Sized)
    (hbytes : v.bytes? = some bytes) : bytes.length < Numeral.bound := by
  cases h with
  | scalar _ hsize => exact hsize bytes hbytes
  | array => cases hbytes

/-- A scalar that was read and may be sent again comes back. -/
theorem SafeScalar.of_read {type : ScalarType} {v : Value} (hproper : v.IsProper)
    (hsized : v.Sized) (hresend : v.Resendable) (hpresent : v.isPresent = true)
    (htype : v.scalarType? = some type) : SafeScalar type v := by
  cases v with
  | null => cases hpresent
  | unsupported => cases hpresent
  | array => cases htype
  | string text =>
    cases htype
    exact .string (hsized.length_lt rfl)
  | binary bytes =>
    cases htype
    exact .binary (hsized.length_lt rfl)
  | unsigned n =>
    cases htype
    exact .unsigned n
  | signed n =>
    cases htype
    exact .signed n
  | float x =>
    cases htype
    cases hresend with
    | scalar _ hfloat => exact .float (hfloat x rfl)
  | code c =>
    cases htype
    exact .code hproper.1 hproper.2
  | errorText text =>
    cases htype
    cases hresend with
    | scalar _ _ herror => exact .errorText (herror text rfl) hproper.1 hproper.2

/-- A value that was read and may be sent again comes back. -/
theorem WireSafe.of_read {levels : Nat} {v : Value} (hwell : v.WellFormed levels)
    (hsized : v.Sized) (hresend : v.Resendable) (hpresent : v.isPresent = true) :
    WireSafe levels v := by
  induction hwell with
  | @scalar levels v harray hproper =>
    obtain ⟨type, htype⟩ : ∃ type, v.scalarType? = some type := by
      cases v with
      | null | unsupported => cases hpresent
      | array => cases harray
      | _ => exact ⟨_, rfl⟩
    exact .scalar (.of_read hproper hsized hresend hpresent htype)
  | @array levels shape items hsupported hholds hitems ih =>
    cases hsized with
    | scalar harray => cases harray
    | array hcount hsizes =>
      cases hresend with
      | scalar harray => cases harray
      | array hflat helement hresends =>
        cases shape with
        | nested =>
          exact .nested hcount fun item hmem =>
            ih item hmem (hsizes item hmem) (hresends item hmem) (hholds item hmem)
        | flat =>
          cases hflat rfl
          exact .emptyFlat
        | any =>
          refine .any hcount fun item hmem => ?_
          rcases hholds item hmem with ⟨text, rfl⟩ | ⟨bytes, rfl, hdecode⟩
          · exact .string ((hsizes _ hmem).length_lt rfl)
          · exact .binary ((hsizes _ hmem).length_lt rfl) hdecode
        | typed element nonNull =>
          refine .typed ?_ hcount fun item hmem => ?_
          · simpa [ScalarType.isElementType] using
              ⟨hsupported element rfl, fun hcode => helement (congrArg some hcode)⟩
          · refine (hholds item hmem).imp_right fun hpart => ?_
            obtain ⟨hpresent, htype⟩ := hpart
            have hproper : item.IsProper := by
              cases hitems item hmem with
              | scalar _ hproper => exact hproper
              | array => cases htype
            exact .of_read hproper (hsizes item hmem) (hresends item hmem) hpresent htype

namespace Batch

/-- What is sent for some entries: a batch of their values. -/
def resend (found : List Entry) : Except EncodeError Bytes := append (found.map Entry.value) []

/-- Decode a batch, and send what was found. -/
def normalize (bytes : Bytes) : Option Bytes :=
  match decode bytes with
  | .complete found _ => (resend found).toOption
  | .incomplete | .broken _ => none

variable {bytes : Bytes} {found : List Entry} {size : Nat}

/-- The number of entries of a batch can be announced. -/
theorem length_lt_of_decode (h : decode bytes = .complete found size) :
    found.length < Numeral.bound := by
  obtain ⟨_, hbatch, -⟩ := decode_eq_complete_iff.mp h
  obtain ⟨count, _, hheader, hentries⟩ := Parse.bind_eq_ok.mp hbatch
  obtain ⟨digits, hnum, -⟩ := Parse.batchHeader_sound hheader
  rw [(Parse.Ensures.repeated (fun _ => Parse.Ensures.entry) count _ _ _ hentries).1]
  exact hnum.lt_bound

/-- An entry whose value comes back comes back. -/
theorem exists_reads_entry {entry : Entry} (hwell : entry.WellFormed) (hclean : entry.error = none)
    (hsafe : WireSafe maxDepth entry.value) :
    ∃ part, Writes (entry.value.append true) part ∧ Parse.Reads Parse.entry part entry := by
  obtain ⟨type, body, hreturns⟩ := hsafe.returns
  obtain ⟨declared, v, error⟩ := entry
  cases hclean
  cases (hwell.itemType?_eq rfl).symm.trans hreturns.itemType
  exact ⟨declared.tag :: body, hreturns.writes, hreturns.reads_entry⟩

/-- What was decoded without local errors can be sent, unless it holds something that cannot be
sent back. The batch that is sent is decoded to the same entries with the same announced types, and
takes all of its bytes. So it is a normal form of the bytes that arrived, and it is its own normal
form. -/
theorem resent_batch_is_normal (h : decode bytes = .complete found size)
    (hclean : ∀ entry ∈ found, entry.error = none)
    (hresend : ∀ entry ∈ found, entry.value.Resendable) :
    ∃ normal, resend found = .ok normal ∧
      (∀ rest, decode (normal ++ rest) = .complete found normal.length) ∧
      normalize bytes = some normal ∧ normalize normal = some normal := by
  have hcount := length_lt_of_decode h
  have hentries : ∀ entry ∈ found,
      ∃ part, Writes (entry.value.append true) part ∧ Parse.Reads Parse.entry part entry := by
    intro entry hmem
    have hwell := forall_of_decode Parse.Ensures.entry h entry hmem
    have hsized := forall_of_decode Parse.Sizes.entry h entry hmem
    have hpresent := forall_of_decode Parse.Ensures.presentEntry h entry hmem (hclean entry hmem)
    exact exists_reads_entry hwell (hclean entry hmem)
      (.of_read hwell.value hsized (hresend entry hmem) hpresent)
  obtain ⟨parts, hparts⟩ := exists_forall₂ hentries
  have hwritten : resend found =
      .ok (Wire.batchHeader found.length ++ parts.flatten) := by
    have hvalues : List.Forall₂ (fun v => Writes (Value.append v true)) (found.map Entry.value)
        parts := List.forall₂_map_left_iff.mpr (hparts.imp fun _ _ hentry => hentry.1)
    have hbatch := Writes.batch hvalues []
    rwa [List.length_map] at hbatch
  have hdecode := decode_of_reads hcount (hparts.imp fun _ _ hentry => hentry.2)
  refine ⟨_, hwritten, hdecode, ?_, ?_⟩
  · rw [normalize, h]
    exact congrArg Except.toOption hwritten
  · have hwhole := hdecode []
    rw [List.append_nil] at hwhole
    rw [normalize, hwhole]
    exact congrArg Except.toOption hwritten

/-- A batch that is spelt in an unusual way: leading zeros, a plus sign, an element that repeats its
tag, and an error text that is no UTF-8. -/
def unusual : Bytes :=
  [42, 48, 51, 10, 59, 48, 50, 10, 43, 53, 10, 64, 58, 48, 50, 10, 58, 49, 10, 55, 10, 0, 10,
    33, 50, 10, 110, 255, 10]

/-- The normal form of the unusual batch. -/
theorem resent_batch_is_normal_unusual :
    let found : List Entry := [⟨.scalar .signed, .signed 5, none⟩,
      ⟨.array .typed, .array (.typed .unsigned false) [.unsigned 7, .null], none⟩,
      ⟨.scalar .responseCode, .errorText "n\uFFFD", none⟩]
    decode unusual = .complete found 29 ∧ (∀ entry ∈ found, entry.error = none) ∧
      (∀ entry ∈ found, entry.value.Resendable) ∧
      ∃ normal, resend found = .ok normal ∧
        (∀ rest, decode (normal ++ rest) = .complete found normal.length) ∧
        normalize unusual = some normal ∧ normalize normal = some normal ∧
        normal = [42, 51, 10, 59, 49, 10, 53, 10, 64, 58, 50, 10, 49, 10, 55, 10, 0, 10,
          33, 52, 10, 110, 239, 191, 189, 10] := by
  intro found
  have hdecode : decode unusual = .complete found 29 := by with_unfolding_all rfl
  have hclean : ∀ entry ∈ found, entry.error = none := by
    simp [found]
  have hresend : ∀ entry ∈ found, entry.value.Resendable := by
    simp only [found, List.forall_mem_cons]
    refine ⟨.scalar rfl nofun nofun, .array nofun nofun ?_, .scalar rfl nofun ?_, nofun⟩
    · rw [List.forall_mem_cons, List.forall_mem_cons]
      exact ⟨.scalar rfl nofun nofun, .scalar rfl nofun nofun, nofun⟩
    · rintro _ ⟨⟩
      decide
  obtain ⟨normal, hresent, hagain, hnormal, hidempotent⟩ :=
    resent_batch_is_normal hdecode hclean hresend
  refine ⟨hdecode, hclean, hresend, normal, hresent, hagain, hnormal, hidempotent, ?_⟩
  have hcomputed : resend found = .ok [42, 51, 10, 59, 49, 10, 53, 10, 64, 58, 50, 10, 49, 10, 55,
      10, 0, 10, 33, 52, 10, 110, 239, 191, 189, 10] := by with_unfolding_all rfl
  exact Except.ok.inj (hresent.symm.trans hcomputed)

end Batch

end StoreClient

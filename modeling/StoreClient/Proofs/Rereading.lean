import StoreClient.Proofs.Commands
import StoreClient.Proofs.WellFormed

/-!
# What is written stays in frame

Not every value comes back as it was sent, but each should come back as one value of its type,
with nothing left of its bytes and nothing taken from those behind. `Value.reread` says what
comes back. Error text alone can leave its frame: it is written as a line whatever it holds, and
read up to the first newline. The main statement is `Batch.values_stay_in_frame`, for values whose
error texts are lines that are no numerals.
-/

namespace StoreClient

namespace Value

/-- What comes back of a scalar. The codes of the client's own have no number that a server may
send, so they come back as error text, and what is not a number comes back as the canonical one. -/
def rereadScalar : Value → Value
  | code c =>
    if 0 ≤ c.number then code c
    else errorText (Utf8.decodeLossy (Numeral.signedDigits c.number))
  | float x => float (if x.isNaN then Binary32.nan else x)
  | v => v

mutual

/-- What comes back of a value that is sent with its tag. Items without tags come back as texts,
or as bytes that are none. -/
def reread : Value → Value
  | array .any items => array .any (items.map rendered)
  | array shape items => array shape (rereadItems items)
  | v => v.rereadScalar

/-- What comes back of the items of an array. -/
def rereadItems : List Value → List Value
  | [] => []
  | item :: rest => item.reread :: rereadItems rest

end

/-- The items of an array come back one by one. -/
theorem rereadItems_eq (items : List Value) : rereadItems items = items.map reread := by
  induction items with
  | nil => rfl
  | cons item rest ih => rw [rereadItems, List.map_cons, ih]

/-- An array whose items have types comes back with its shape. -/
theorem reread_array {shape : ArrayShape} (h : shape ≠ .any) (items : List Value) :
    (array shape items).reread = array shape (items.map reread) := by
  rw [← rereadItems_eq]
  cases shape with
  | any => exact absurd rfl h
  | nested | flat | typed =>
    rw [reread]
    simp

/-- What is no array comes back as a scalar. -/
theorem reread_of_isArray_eq_false {v : Value} (h : v.isArray = false) :
    v.reread = v.rereadScalar := by
  cases v with
  | array => cases h
  | _ =>
    rw [reread]
    all_goals simp

/-- What has the payload of a text arrives as that text. -/
theorem rendered_of_encode {v : Value} {text : String} (h : v.payload = Utf8.encode text) :
    v.rendered = string text := by
  rw [rendered, h, Utf8.decode?_encode]

/-- A scalar outside of arrays without tags, all of whose error texts are of some kind: it is not
the packet error, which breaks the batch, and its size fits on the wire. -/
structure Plain (texts : String → Prop) (v : Value) : Prop where
  ne_packet : v ≠ .code .packet
  text : ∀ text, v = .errorText text → texts text
  size_lt : v.payload.length < Numeral.bound

/-- A value with at most so many levels of arrays and no flat array. Its error texts are of some
kind and none of its codes is the packet error, but for those in arrays without tags. Its sizes
and counts fit on the wire. -/
inductive Framed (texts : String → Prop) : (levels : Nat) → Value → Prop where
  | scalar {levels : Nat} {v : Value} : v.isArray = false → v.Plain texts → Framed texts levels v
  | any {levels : Nat} {items : List Value} : items.length < Numeral.bound →
      (∀ item ∈ items, item.payload.length < Numeral.bound) →
      Framed texts (levels + 1) (.array .any items)
  | array {levels : Nat} {shape : ArrayShape} {items : List Value} : shape ≠ .flat →
      shape ≠ .any → items.length < Numeral.bound → (∀ item ∈ items, Framed texts levels item) →
      Framed texts (levels + 1) (.array shape items)

/-- Error text that is one line and no numeral. -/
def IsPlainText (text : String) : Prop := (errorText text).IsProper

variable {v : Value} {type : ScalarType} {payload : Bytes}

/-- The payload of a scalar, without its type. -/
theorem payload_eq (h : v.payload? = some (type, payload)) : v.payload = payload := by
  rw [Value.payload, h]
  rfl

/-- A safe scalar is read back from its payload. -/
theorem reads_of_safe (h : SafeScalar type v) (hpayload : v.payload? = some (type, payload)) :
    Parse.Reads (Parse.scalarBody type payload.length) (Wire.line payload) (v, none) := by
  obtain ⟨_, hsame, -, hreads⟩ := h.exists_payload
  rw [hpayload] at hsame
  cases hsame
  exact hreads

/-- What is not a number is written as a word, which is read as the canonical one. -/
theorem reads_of_isNaN {x : Binary32} (h : x.isNaN = true) :
    Parse.Reads (Parse.scalarBody .float x.text.length) (Wire.line x.text)
      (.float Binary32.nan, none) := by
  have htext : x.text = "NaN".toList.map Char.toUInt8 := by rw [Binary32.text, if_pos h]
  rw [htext]
  exact .lineBody rfl (by decide) (Parse.lineValue_of_numberOf? (by rfl))

/-- The number of a client's own code is below zero, so it is read as error text. -/
theorem reads_of_number_neg {c : ReplyCode} (h : ¬ 0 ≤ c.number) :
    Parse.Reads (Parse.scalarBody .responseCode (Numeral.signedDigits c.number).length)
      (Wire.line (Numeral.signedDigits c.number))
      (.errorText (Utf8.decodeLossy (Numeral.signedDigits c.number)), none) := by
  refine .lineBody rfl (Numeral.newline_not_mem_signedDigits _) ?_
  cases c with
  | errorText | generic => rfl
  | _ => exact absurd (by decide) h

/-- A plain scalar is read from its payload, without a flaw. -/
theorem Plain.reads_scalarBody (h : v.Plain IsPlainText)
    (hpayload : v.payload? = some (type, payload)) :
    Parse.Reads (Parse.scalarBody type payload.length) (Wire.line payload)
      (v.rereadScalar, none) := by
  have hsize : payload.length < Numeral.bound := payload_eq hpayload ▸ h.size_lt
  cases v with
  | string text => cases hpayload; exact reads_of_safe (.string hsize) rfl
  | binary bytes => cases hpayload; exact reads_of_safe (.binary hsize) rfl
  | unsigned n => cases hpayload; exact reads_of_safe (.unsigned n) rfl
  | signed n => cases hpayload; exact reads_of_safe (.signed n) rfl
  | float x =>
    cases hpayload
    by_cases hnan : x.isNaN = true
    · rw [rereadScalar, if_pos hnan]
      exact reads_of_isNaN hnan
    · rw [rereadScalar, if_neg hnan]
      exact reads_of_safe (.float (Bool.eq_false_iff.mpr hnan)) rfl
  | code c =>
    cases hpayload
    have hpacket : c ≠ .packet := fun heq => h.ne_packet (congrArg code heq)
    by_cases hserver : 0 ≤ c.number
    · rw [rereadScalar, if_pos hserver]
      exact reads_of_safe (.code hserver hpacket) rfl
    · rw [rereadScalar, if_neg hserver]
      exact reads_of_number_neg hserver
  | errorText text =>
    cases hpayload
    obtain ⟨hline, hnumeral⟩ : IsPlainText text := h.text text rfl
    exact reads_of_safe (.errorText hsize hline hnumeral) rfl
  | null | array | unsupported => cases hpayload

/-- What is no array and can be written is a scalar. -/
theorem isScalar_of_append {typed : Bool} {before after : Bytes}
    (harray : v.isArray = false) (h : v.append typed before = .ok after) : v.IsScalar := by
  cases v with
  | null | unsupported =>
    rw [append] at h
    cases h
  | array => cases harray
  | _ => exact ⟨_, rfl⟩

end Value

/-- The item is written in an array of this shape as these bytes, and read from them as what comes
back of it. -/
structure ItemRereads (room : Nat) (shape : ArrayShape) (item : Value) (bytes : Bytes) : Prop where
  writes : Writes (appendItem shape item) bytes
  reads : ∀ index, Parse.Reads (Parse.arrayItem room shape index) bytes item.reread

/-- The value is written with its tag and these bytes, and read behind the tag as what comes back
of it, with `room` for so many levels of arrays. -/
structure Rereads (room : Nat) (v : Value) (type : ItemType) (body : Bytes) : Prop where
  itemType : v.itemType? = some type
  writes : Writes (v.append true) (type.tag :: body)
  reads : ReadsBehind room v.reread body type

namespace ItemRereads

variable {room : Nat} {shape : ArrayShape} {item : Value} {items : List Value}
  {element : ScalarType} {nonNull : Bool} {before after : Bytes}

/-- An item that was written is not refused by its array. -/
theorem refuses_eq_none (h : appendItem shape item before = .ok after) :
    shape.refuses item = none := by
  cases hrefuses : shape.refuses item with
  | none => rfl
  | some e => simp [appendItem, hrefuses] at h

/-- An item of a typed array comes back: it is null where nulls are allowed, or a scalar of the
type that the header names. -/
theorem typed (hframed : item.Framed Value.IsPlainText room)
    (h : appendItem (.typed element nonNull) item before = .ok after) :
    ∃ bytes, ItemRereads room (.typed element nonNull) item bytes := by
  have htaken := refuses_eq_none h
  by_cases hnull : item = .null
  · subst hnull
    have hallowed : nonNull = false := by
      cases nonNull with
      | false => rfl
      | true => cases htaken
    subst hallowed
    exact ⟨_, fun _ => rfl, fun _ => (Parse.Reads.nullSize element).bindPure (.pure Value.null)⟩
  · have hpresent : item.isNull = false := by
      cases item with
      | null => exact absurd rfl hnull
      | _ => rfl
    have harray : item.isArray = false := by
      cases item with
      | array => cases htaken
      | _ => rfl
    have happend : item.append false before = .ok after := by
      simpa [appendItem, htaken, hpresent, ArrayShape.tagsItems] using h
    obtain ⟨type, hpayload⟩ := Value.isScalar_of_append harray happend
    obtain rfl : type = element := by
      have htype := Value.scalarType?_of_payload? hpayload
      simpa [ArrayShape.refuses, hpresent, harray, htype] using htaken
    cases hframed with
    | any | array => cases harray
    | scalar _ hplain =>
      refine ⟨_, writes_appendItem htaken hpresent (Value.writes_scalar hpayload false),
        fun _ => ?_⟩
      rw [Value.reread_of_isArray_eq_false harray]
      exact (Parse.Reads.elementSize hplain.size_lt type).bind
        (hplain.reads_scalarBody hpayload).unflawed

/-- An item of an array of tagged items comes back if it does so with its tag. -/
theorem nested {type : ItemType} {body : Bytes} (hrefuses : ArrayShape.nested.refuses item = none)
    (h : Rereads room item type body) : ItemRereads room .nested item (type.tag :: body) where
  writes := by
    refine writes_appendItem hrefuses ?_ h.writes
    cases item with
    | null => cases hrefuses
    | _ => rfl
  reads index := by
    refine (Parse.Reads.itemType type).bind ?_
    have hreads := h.reads
    cases type with
    | scalar type => exact hreads.unflawed
    | array kind => exact hreads

/-- An array comes back if its items do. -/
theorem array {bytes : List Bytes} (hshape : shape.IsSendable) (hany : shape ≠ .any)
    (hcount : items.length < Numeral.bound)
    (h : List.Forall₂ (ItemRereads room shape) items bytes) :
    Rereads (room + 1) (.array shape items) (.array shape.kind)
      (shape.opening items.length ++ bytes.flatten) where
  itemType := rfl
  writes := Writes.array hshape (h.imp fun _ _ hitem => hitem.writes)
  reads := by
    have hreads : List.Forall₂
        (fun back taken => ∀ turn, Parse.Reads (Parse.arrayItem room shape turn) taken back)
        (items.map Value.reread) bytes :=
      List.forall₂_map_left_iff.mpr (h.imp fun _ _ hitem => hitem.reads)
    have hitems := (Parse.Reads.repeated hreads).map (Value.array shape)
    rw [List.length_map] at hitems
    rw [ReadsBehind, Parse.array_succ, Value.reread_array hany]
    exact (ArrayShape.reads_opening hshape hcount).bind hitems

end ItemRereads

namespace Value

/-- The header and the items of an array that was written could be written. -/
theorem accepts_of_append_array {shape : ArrayShape} {items : List Value} {before after : Bytes}
    (h : (Value.array shape items).append true before = .ok after) :
    shape.IsSendable ∧
      ∀ item ∈ items, ∃ before after, appendItem shape item before = .ok after := by
  rw [append, if_pos rfl] at h
  simp only [appendItems_eq] at h
  cases hopened : appendArrayHeader shape.kind shape.element? items.length before with
  | error e =>
    rw [hopened] at h
    cases h
  | ok opened =>
    rw [hopened] at h
    refine ⟨?_, exists_of_foldlM_eq_ok (appendItem shape) h⟩
    rcases shape with _ | _ | _ | ⟨element, nonNull⟩
    · exact .untyped rfl
    · exact .untyped rfl
    · exact .untyped rfl
    · rintro _ ⟨⟩
      by_contra helement
      cases nonNull <;>
        simp [appendArrayHeader, ArrayShape.kind, ArrayShape.element?, ArrayKind.isTyped,
          helement] at hopened

/-- A framed value that can be written comes back, by induction on its levels of arrays. -/
theorem Framed.rereads {levels : Nat} {v : Value} (h : v.Framed IsPlainText levels)
    {before after : Bytes} (haccepted : v.append true before = .ok after) :
    ∃ type body, Rereads levels v type body := by
  induction h generalizing before after with
  | @scalar levels v harray hplain =>
    obtain ⟨type, hpayload⟩ := isScalar_of_append harray haccepted
    refine ⟨.scalar type, _, ?_, writes_scalar hpayload true, ?_⟩
    · rw [itemType?, scalarType?_of_payload? hpayload]
      rfl
    · rw [ReadsBehind, reread_of_isArray_eq_false harray]
      exact (Parse.Reads.count hplain.size_lt "payload size").bind
        (hplain.reads_scalarBody hpayload)
  | @any levels items hcount hsizes =>
    have hpayloads := isScalar_of_appendCommand haccepted
    have hreads := reads_segments levels hcount hsizes
    have hwrites := writes_command hpayloads
    rw [Wire.command_eq] at hwrites
    exact ⟨.array .any, _, rfl, hwrites, hreads⟩
  | @array levels shape items hflat hany hcount hitems ih =>
    obtain ⟨hsendable, hwritten⟩ := accepts_of_append_array haccepted
    have hitem : ∀ item ∈ items, ∃ bytes, ItemRereads levels shape item bytes := by
      intro item hmem
      obtain ⟨start, longer, happend⟩ := hwritten item hmem
      cases shape with
      | flat => exact absurd rfl hflat
      | any => exact absurd rfl hany
      | typed element nonNull => exact ItemRereads.typed (hitems item hmem) happend
      | nested =>
        have htaken := ItemRereads.refuses_eq_none happend
        have htagged : item.append true start = .ok longer := by
          simpa [appendItem, htaken, ArrayShape.element?, ArrayShape.tagsItems] using happend
        obtain ⟨type, body, hrereads⟩ := ih item hmem htagged
        exact ⟨_, ItemRereads.nested htaken hrereads⟩
    obtain ⟨bytes, hbytes⟩ := exists_forall₂ hitem
    exact ⟨_, _, ItemRereads.array hsendable hany hcount hbytes⟩

end Value

/-- A value that comes back makes an entry of its own type without a local error. -/
theorem Rereads.reads_entry {v : Value} {type : ItemType} {body : Bytes}
    (h : Rereads maxDepth v type body) :
    Parse.Reads Parse.entry (type.tag :: body) ⟨type, v.reread, none⟩ := by
  have hreads := h.reads
  refine (Parse.Reads.itemType type).bind ?_
  cases type with
  | scalar type => exact hreads.bindPure (.pure _)
  | array kind => exact hreads.bindPure (.pure _)

namespace Batch

/-- The values of a batch that was written could be written. -/
theorem accepts_of_append {values : List Value} {buffer bytes : Bytes}
    (h : append values buffer = .ok bytes) :
    ∀ v ∈ values, ∃ before after, v.append true before = .ok after :=
  exists_of_foldlM_eq_ok (fun v : Value => v.append true) h

/-- Values that come back one by one come back in a list. -/
theorem exists_reread_entries {values : List Value}
    (h : ∀ v ∈ values, ∃ type body, Rereads maxDepth v type body) :
    ∃ bytes found, List.Forall₂ (fun v => Writes (Value.append v true)) values bytes ∧
      List.Forall₂ (fun entry taken => ∀ _ : Nat, Parse.Reads Parse.entry taken entry) found bytes ∧
      found.map (fun entry => some entry.declared) = values.map Value.itemType? ∧
      found.map Entry.value = values.map Value.reread ∧ ∀ entry ∈ found, entry.error = none := by
  induction values with
  | nil => exact ⟨[], [], .nil, .nil, rfl, rfl, nofun⟩
  | cons v rest ih =>
    obtain ⟨type, body, hrereads⟩ := h v List.mem_cons_self
    obtain ⟨bytes, found, hwrites, hreads, htypes, hvalues, herrors⟩ :=
      ih fun w hw => h w (List.mem_cons_of_mem v hw)
    refine ⟨(type.tag :: body) :: bytes, ⟨type, v.reread, none⟩ :: found,
      .cons hrereads.writes hwrites, .cons (fun _ => hrereads.reads_entry) hreads, ?_, ?_, ?_⟩
    · rw [List.map_cons, List.map_cons, htypes, hrereads.itemType]
    · rw [List.map_cons, List.map_cons, hvalues]
    · exact List.forall_mem_cons.mpr ⟨rfl, herrors⟩

/-- Whatever framed values can be written as a batch are read back as just as many entries, each
of the type of its value and with what comes back of it. The batch takes all of its bytes and
none of those behind. Only error text has to be plain for this. -/
theorem values_stay_in_frame {values : List Value} {bytes : Bytes}
    (hcount : values.length < Numeral.bound)
    (hframed : ∀ v ∈ values, v.Framed Value.IsPlainText maxDepth)
    (happend : append values [] = .ok bytes) :
    ∃ found, (∀ rest, decode (bytes ++ rest) = .complete found bytes.length) ∧
      found.map (fun entry => some entry.declared) = values.map Value.itemType? ∧
      found.map Entry.value = values.map Value.reread ∧ ∀ entry ∈ found, entry.error = none := by
  have hrereads : ∀ v ∈ values, ∃ type body, Rereads maxDepth v type body := by
    intro v hv
    obtain ⟨_, _, haccepted⟩ := accepts_of_append happend v hv
    exact (hframed v hv).rereads haccepted
  obtain ⟨parts, found, hwrites, hreads, htypes, hvalues, herrors⟩ :=
    exists_reread_entries hrereads
  obtain rfl : Wire.batchHeader values.length ++ parts.flatten = bytes := by
    have hwritten := Writes.batch hwrites []
    rw [List.nil_append, happend] at hwritten
    exact (Except.ok.inj hwritten).symm
  have hbatch :
      Parse.Reads Parse.batch (Wire.batchHeader values.length ++ parts.flatten) found := by
    have hrepeated := Parse.Reads.repeated hreads
    have hlength : found.length = values.length := by
      rw [← List.length_map Entry.value, hvalues, List.length_map]
    rw [hlength] at hrepeated
    exact (reads_batchHeader hcount).bind hrepeated
  refine ⟨found, fun rest => ?_, htypes, hvalues, herrors⟩
  rw [decode_eq_complete_iff]
  exact ⟨rest, hbatch rest, Nat.eq_sub_of_add_eq List.length_append.symm⟩

/-- A batch of which not everything comes back as it was sent: what is not a number, a code of
the client's own, and the items of an array without tags, one of them the packet error. -/
def altered : List Value :=
  [.float ⟨0x7FC00001⟩, .code .generic, .errorText "no",
    .array .nested [.string "a\n:1", .array (.typed .signed false) [.null, .signed (-5)],
      .array .any [.unsigned 7, .code .packet]]]

/-- The values of `altered` stay in frame, and come back as other values. -/
theorem values_stay_in_frame_altered :
    ∃ bytes, altered.length < Numeral.bound ∧
      (∀ v ∈ altered, v.Framed Value.IsPlainText maxDepth) ∧ append altered [] = .ok bytes ∧
      (∃ found, (∀ rest, decode (bytes ++ rest) = .complete found bytes.length) ∧
        found.map (fun entry => some entry.declared) = altered.map Value.itemType? ∧
        found.map Entry.value = altered.map Value.reread ∧
        ∀ entry ∈ found, entry.error = none) ∧
      altered.map Value.reread = [.float Binary32.nan, .errorText "-2", .errorText "no",
        .array .nested [.string "a\n:1", .array (.typed .signed false) [.null, .signed (-5)],
          .array .any [.string "7", .string "4"]]] := by
  have hcount : altered.length < Numeral.bound := by decide
  have hplain {v : Value} (htext : ∀ text, v ≠ .errorText text) (hpacket : v ≠ .code .packet)
      (hsize : v.payload.length < Numeral.bound) : v.Plain Value.IsPlainText :=
    ⟨hpacket, fun text heq => absurd heq (htext text), hsize⟩
  have hno : Value.IsPlainText "no" := by
    refine ⟨by decide, ?_⟩
    rintro ⟨-, hdigits⟩
    exact absurd (hdigits 'n' (by decide)) (by decide)
  have hframed : ∀ v ∈ altered, v.Framed Value.IsPlainText maxDepth := by
    simp only [altered, List.forall_mem_cons]
    refine ⟨.scalar rfl (hplain nofun nofun (by decide)),
      .scalar rfl (hplain nofun nofun (by decide)),
      .scalar rfl ⟨nofun, fun text heq => by cases heq; exact hno, by decide⟩,
      .array nofun nofun (by decide) ?_, nofun⟩
    simp only [List.forall_mem_cons]
    refine ⟨.scalar rfl (hplain nofun nofun (by decide)), .array nofun nofun (by decide) ?_,
      .any (by decide) ?_, nofun⟩
    · rw [List.forall_mem_cons, List.forall_mem_cons]
      exact ⟨.scalar rfl (hplain nofun nofun (by decide)),
        .scalar rfl (hplain nofun nofun (by decide)), nofun⟩
    · rw [List.forall_mem_cons, List.forall_mem_cons]
      exact ⟨by decide, by decide, nofun⟩
  obtain ⟨bytes, happend⟩ : ∃ bytes, append altered [] = .ok bytes := ⟨_, by rfl⟩
  refine ⟨bytes, hcount, hframed, happend, values_stay_in_frame hcount hframed happend, ?_⟩
  have hgeneric : (Value.code .generic).rereadScalar = .errorText "-2" :=
    congrArg Value.errorText (Utf8.decodeLossy_encode "-2")
  have hseven : (Value.unsigned 7).rendered = .string "7" := Value.rendered_of_encode (by rfl)
  have hfour : (Value.code .packet).rendered = .string "4" := Value.rendered_of_encode (by rfl)
  have hscalars : (Value.float ⟨0x7FC00001⟩).rereadScalar = .float Binary32.nan ∧
      (Value.errorText "no").rereadScalar = .errorText "no" ∧
      (Value.string "a\n:1").rereadScalar = .string "a\n:1" ∧
      Value.null.rereadScalar = .null ∧ (Value.signed (-5)).rereadScalar = .signed (-5) :=
    ⟨rfl, rfl, rfl, rfl, rfl⟩
  simp [altered, Value.reread, Value.rereadItems, hscalars, hgeneric, hseven, hfour]

/-- Error text that was read is plain, so no other error text ever comes back as itself. -/
theorem isPlainText_of_decode {bytes : Bytes} {found : List Entry} {size : Nat} {text : String}
    (h : decode bytes = .complete found size)
    (hmem : Value.errorText text ∈ found.map Entry.value) : Value.IsPlainText text := by
  obtain ⟨entry, hentry, htext⟩ := List.mem_map.mp hmem
  have hvalue := (forall_of_decode Parse.Ensures.entry h entry hentry).value
  rw [htext] at hvalue
  cases hvalue with
  | scalar _ hproper => exact hproper

/-- Error text with a newline leaves its frame: it is cut short there, and the rest of it is left
over. A numeral turns into a code, and that of the packet error breaks the batch. So the framing
of values does not hold of any text. -/
theorem not_values_stay_in_frame :
    (¬ ∀ (values : List Value) (bytes : Bytes), values.length < Numeral.bound →
      (∀ v ∈ values, v.Framed (fun _ => True) maxDepth) → append values [] = .ok bytes →
      ∃ found, decode bytes = .complete found bytes.length ∧
        found.map (fun entry => some entry.declared) = values.map Value.itemType?) ∧
    (∃ bytes found, append [.errorText "5"] [] = .ok bytes ∧
      decode bytes = .complete found bytes.length ∧ found.map Entry.value = [.code .server]) ∧
    ∃ bytes, append [.errorText "4"] [] = .ok bytes ∧
      decode bytes = .broken ⟨[], .protocol .packetError⟩ := by
  refine ⟨fun hall => ?_, ⟨_, _, by rfl, by rfl, by rfl⟩, ⟨_, by rfl, by rfl⟩⟩
  have hframed : ∀ v ∈ [Value.errorText "a\nb"], v.Framed (fun _ => True) maxDepth := by
    rw [List.forall_mem_cons]
    exact ⟨.scalar rfl ⟨nofun, fun _ _ => trivial, by decide⟩, nofun⟩
  obtain ⟨found, hdecode, -⟩ := hall _ _ (by decide) hframed (by rfl)
  obtain ⟨shorter, hshort⟩ : ∃ found,
      decode (Wire.batchHeader 1 ++ Wire.scalar .responseCode (Utf8.encode "a\nb") true) =
        .complete found 8 := ⟨_, by rfl⟩
  have hsame := hdecode.symm.trans hshort
  injection hsame with _ hsize
  exact absurd hsize (by decide)

end Batch

end StoreClient

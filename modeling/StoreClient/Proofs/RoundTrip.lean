import StoreClient.Proofs.ReadingBack
import Mathlib.Data.List.Forall2

/-!
# Decoding undoes encoding

A wire-safe value is written as bytes that are read back as that value, by induction on
its levels of arrays. The main statement is `Batch.decode_undoes_append`: a batch of such
values is decoded to exactly those values, whatever stands behind it.
-/

namespace StoreClient

/-- The item is written in an array of this shape as these bytes, and they are read back
as the item. -/
structure ItemReturns (room : Nat) (shape : ArrayShape) (item : Value) (bytes : Bytes) :
    Prop where
  writes : Writes (appendItem shape item) bytes
  reads : ∀ index, Parse.Reads (Parse.arrayItem room shape index) bytes item

/-- These bytes are read as the value behind the tag of a type. -/
def ReadsBehind (room : Nat) (v : Value) (body : Bytes) : ItemType → Prop
  | .scalar type => Parse.Reads (Parse.scalar type) body (v, none)
  | .array kind => Parse.Reads (Parse.array room kind) body v

/-- The value is written with its tag and these bytes, and they are read back behind the
tag as the value, with `room` for so many levels of arrays. -/
structure Returns (room : Nat) (v : Value) (type : ItemType) (body : Bytes) : Prop where
  itemType : v.itemType? = some type
  writes : Writes (v.append true) (type.tag :: body)
  reads : ReadsBehind room v body type

namespace ItemReturns

variable {room : Nat} {shape : ArrayShape} {items : List Value} {bytes : List Bytes}
  {element : ScalarType} {nonNull : Bool} {item : Value}

/-- A null comes back where nulls are allowed. -/
theorem null : ItemReturns room (.typed element false) .null (Wire.line Wire.nullMarker) where
  writes _ := rfl
  reads _ := (Parse.Reads.nullSize element).bindPure (.pure Value.null)

/-- A safe scalar comes back from an array of its type. -/
theorem typed (h : SafeScalar element item) :
    ∃ bytes, ItemReturns room (.typed element nonNull) item bytes := by
  obtain ⟨payload, hpayload, hsize, hbody⟩ := h.exists_payload
  refine ⟨Wire.scalar element payload false, writes_appendItem ?_ h.isNull_eq_false
    (Value.writes_scalar hpayload false), fun index => ?_⟩
  · simp [ArrayShape.refuses, h.isNull_eq_false, h.isArray_eq_false, h.scalarType?_eq]
  · exact (Parse.Reads.elementSize hsize element).bind hbody.unflawed

/-- A text, or bytes that are none, comes back from an array without tags. -/
theorem any (h : SafeAnyItem item) : ∃ bytes, ItemReturns room .any item bytes := by
  cases h with
  | @string text hsize =>
    refine ⟨Wire.scalar .string (Utf8.encode text) false,
      writes_appendItem rfl rfl (Value.writes_scalar rfl false), fun _ => ?_⟩
    have htext : Parse.textOrBinary (Utf8.encode text) = .string text := by
      rw [Parse.textOrBinary, Utf8.decode?_encode]
    exact htext ▸ Parse.Reads.anyItem hsize
  | @binary payload hsize hdecode =>
    refine ⟨Wire.scalar .binary payload false,
      writes_appendItem rfl rfl (Value.writes_scalar rfl false), fun _ => ?_⟩
    have hbinary : Parse.textOrBinary payload = .binary payload := by
      rw [Parse.textOrBinary, hdecode]
    exact hbinary ▸ Parse.Reads.anyItem hsize

/-- A value with a tag comes back from an array of tagged items. -/
theorem nested {type : ItemType} {body : Bytes} (hnull : item.isNull = false)
    (h : Returns room item type body) : ItemReturns room .nested item (type.tag :: body) where
  writes := by
    refine writes_appendItem ?_ hnull h.writes
    simp [ArrayShape.refuses, hnull]
  reads index := by
    refine (Parse.Reads.itemType type).bind ?_
    cases type with
    | scalar type => exact Parse.Reads.unflawed h.reads
    | array kind => exact h.reads

/-- An array comes back if its items do. -/
theorem array (hshape : shape.IsSendable) (hcount : items.length < Numeral.bound)
    (h : List.Forall₂ (ItemReturns room shape) items bytes) :
    Returns (room + 1) (.array shape items) (.array shape.kind)
      (shape.opening items.length ++ bytes.flatten) where
  itemType := rfl
  writes := Writes.array hshape (h.imp fun _ _ hitem => hitem.writes)
  reads := by
    have hitems := Parse.Reads.repeated (h.imp fun _ _ hitem => hitem.reads)
    rw [ReadsBehind, Parse.array_succ]
    exact (ArrayShape.reads_opening hshape hcount).bind (hitems.map (Value.array shape))

end ItemReturns

/-- A safe scalar comes back behind its tag. -/
theorem SafeScalar.returns {type : ScalarType} {v : Value} (h : SafeScalar type v) (room : Nat) :
    ∃ body, Returns room v (.scalar type) body := by
  obtain ⟨payload, hpayload, hsize, hbody⟩ := h.exists_payload
  exact ⟨Wire.line (Numeral.digits payload.length) ++ Wire.line payload, h.itemType?_eq,
    Value.writes_scalar hpayload true, (Parse.Reads.count hsize "payload size").bind hbody⟩

/-- If every member of a list has a partner, the list has a list of partners. -/
theorem exists_forall₂ {α β : Type} {r : α → β → Prop} {items : List α}
    (h : ∀ a ∈ items, ∃ b, r a b) : ∃ partners, List.Forall₂ r items partners := by
  induction items with
  | nil => exact ⟨[], .nil⟩
  | cons a rest ih =>
    obtain ⟨b, hb⟩ := h a List.mem_cons_self
    obtain ⟨partners, hpartners⟩ := ih fun c hc => h c (List.mem_cons_of_mem a hc)
    exact ⟨b :: partners, .cons hb hpartners⟩

/-- A safe value comes back behind its tag, by induction on its levels of arrays. -/
theorem WireSafe.returns {levels : Nat} {v : Value} (h : WireSafe levels v) :
    ∃ type body, Returns levels v type body := by
  induction h with
  | scalar hscalar =>
    obtain ⟨body, hbody⟩ := hscalar.returns _
    exact ⟨_, body, hbody⟩
  | @typed room element nonNull items helement hcount hitems =>
    have hsendable : ArrayShape.IsSendable (.typed element nonNull) := by
      rintro _ ⟨⟩
      exact helement
    have hpartner : ∀ item ∈ items,
        ∃ bytes, ItemReturns room (.typed element nonNull) item bytes := by
      intro item hitem
      rcases hitems item hitem with ⟨rfl, rfl⟩ | hscalar
      · exact ⟨_, ItemReturns.null⟩
      · exact ItemReturns.typed hscalar
    obtain ⟨bytes, hbytes⟩ := exists_forall₂ hpartner
    exact ⟨_, _, ItemReturns.array hsendable hcount hbytes⟩
  | emptyFlat => exact ⟨_, _, ItemReturns.array (.untyped rfl) (by decide) .nil⟩
  | @any room items hcount hitems =>
    obtain ⟨bytes, hbytes⟩ := exists_forall₂ (r := ItemReturns room .any) fun item hitem =>
      ItemReturns.any (hitems item hitem)
    exact ⟨_, _, ItemReturns.array (.untyped rfl) hcount hbytes⟩
  | @nested room items hcount hitems ih =>
    have hpartner : ∀ item ∈ items, ∃ bytes, ItemReturns room .nested item bytes := by
      intro item hitem
      obtain ⟨type, body, hreturns⟩ := ih item hitem
      exact ⟨_, ItemReturns.nested (hitems item hitem).isNull_eq_false hreturns⟩
    obtain ⟨bytes, hbytes⟩ := exists_forall₂ hpartner
    exact ⟨_, _, ItemReturns.array (.untyped rfl) hcount hbytes⟩

/-- A value that comes back makes an entry without a local error. -/
theorem Returns.reads_entry {v : Value} {type : ItemType} {body : Bytes}
    (h : Returns maxDepth v type body) :
    Parse.Reads Parse.entry (type.tag :: body) ⟨type, v, none⟩ := by
  have hreads := h.reads
  refine (Parse.Reads.itemType type).bind ?_
  cases type with
  | scalar type => exact hreads.bindPure (.pure _)
  | array kind => exact hreads.bindPure (.pure _)

namespace Batch

/-- The header of a batch is read back. -/
theorem reads_batchHeader {count : Nat} (h : count < Numeral.bound) :
    Parse.Reads Parse.batchHeader (Wire.batchHeader count) count := by
  refine (Parse.Reads.byte '*'.toUInt8).bind ?_
  rw [if_pos rfl]
  exact Parse.Reads.count h "batch size"

/-- Entries that are read one by one make a batch, whatever stands behind it. -/
theorem decode_of_reads {entries : List Entry} {parts : List Bytes}
    (hcount : entries.length < Numeral.bound)
    (h : List.Forall₂ (fun entry part => Parse.Reads Parse.entry part entry) entries parts)
    (rest : Bytes) :
    decode (Wire.batchHeader entries.length ++ parts.flatten ++ rest) =
      .complete entries (Wire.batchHeader entries.length ++ parts.flatten).length := by
  have hentries : Parse.Reads (Parse.repeated (fun _ => Parse.entry) entries.length)
      parts.flatten entries := Parse.Reads.repeated (h.imp fun _ _ hreads _ => hreads)
  have hbatch : Parse.Reads Parse.batch
      (Wire.batchHeader entries.length ++ parts.flatten) entries :=
    (reads_batchHeader hcount).bind hentries
  rw [decode_eq_complete_iff]
  exact ⟨rest, hbatch rest, Nat.eq_sub_of_add_eq List.length_append.symm⟩

/-- Values that come back one by one come back in a list. -/
theorem exists_entries {values : List Value}
    (h : ∀ v ∈ values, ∃ type body, Returns maxDepth v type body) :
    ∃ bytes found, List.Forall₂ (fun v => Writes (Value.append v true)) values bytes ∧
      List.Forall₂ (fun entry taken => ∀ _ : Nat, Parse.Reads Parse.entry taken entry) found bytes ∧
      found.map Entry.value = values ∧
      ∀ entry ∈ found, entry.error = none ∧ entry.value.itemType? = some entry.declared := by
  induction values with
  | nil => exact ⟨[], [], .nil, .nil, rfl, nofun⟩
  | cons v rest ih =>
    obtain ⟨type, body, hreturns⟩ := h v List.mem_cons_self
    obtain ⟨bytes, found, hwrites, hreads, hvalues, hentries⟩ :=
      ih fun w hw => h w (List.mem_cons_of_mem v hw)
    refine ⟨(type.tag :: body) :: bytes, ⟨type, v, none⟩ :: found, .cons hreturns.writes hwrites,
      .cons (fun _ => hreturns.reads_entry) hreads, by rw [List.map_cons, hvalues], ?_⟩
    intro entry hentry
    rcases List.mem_cons.mp hentry with rfl | hentry
    · exact ⟨rfl, hreturns.itemType⟩
    · exact hentries entry hentry

/-- A batch of wire-safe values can be sent, and it is read back as just these values in
order: each with its own tag and without a local error, and no byte behind the batch is
taken. -/
theorem decode_undoes_append {values : List Value} (hcount : values.length < Numeral.bound)
    (hsafe : ∀ v ∈ values, WireSafe maxDepth v) :
    ∃ bytes found, append values [] = .ok bytes ∧ found.map Entry.value = values ∧
      (∀ entry ∈ found, entry.error = none ∧ entry.value.itemType? = some entry.declared) ∧
      ∀ rest, decode (bytes ++ rest) = .complete found bytes.length := by
  obtain ⟨bytes, found, hwrites, hreads, hvalues, hentries⟩ :=
    exists_entries fun v hv => (hsafe v hv).returns
  have hbatch :
      Parse.Reads Parse.batch (Wire.batchHeader values.length ++ bytes.flatten) found := by
    have hrepeated := Parse.Reads.repeated hreads
    have hlength : found.length = values.length := by rw [← hvalues, List.length_map]
    rw [hlength] at hrepeated
    exact (reads_batchHeader hcount).bind hrepeated
  refine ⟨_, found, Writes.batch hwrites [], hvalues, hentries, fun rest => ?_⟩
  rw [decode_eq_complete_iff]
  refine ⟨rest, hbatch rest, ?_⟩
  rw [List.nil_append]
  exact Nat.eq_sub_of_add_eq List.length_append.symm

/-- A batch with a value of every kind: the text looks like items, one array holds a null,
and one holds bytes that are no text. -/
def mixed : List Value :=
  [.string "a\n:1", .float ⟨0x3F800000⟩, .code .okay, .errorText "no",
    .array .nested [.unsigned 7, .array (.typed .signed false) [.null, .signed (-5)],
      .array .any [.string "hi", .binary [255]], .array .flat []]]

/-- The values of `mixed` are wire-safe, so they come back. -/
theorem decode_undoes_append_mixed :
    mixed.length < Numeral.bound ∧ (∀ v ∈ mixed, WireSafe maxDepth v) ∧
      ∃ bytes found, append mixed [] = .ok bytes ∧ found.map Entry.value = mixed ∧
        (∀ entry ∈ found, entry.error = none ∧ entry.value.itemType? = some entry.declared) ∧
        ∀ rest, decode (bytes ++ rest) = .complete found bytes.length := by
  have hcount : mixed.length < Numeral.bound := by decide
  have hsafe : ∀ v ∈ mixed, WireSafe maxDepth v := by
    simp only [mixed, List.forall_mem_cons]
    refine ⟨.scalar (.string (by decide)), .scalar (.float (by decide)),
      .scalar (.code (by decide) (by decide)), .scalar (.errorText (by decide) (by decide) ?_),
      .nested (by decide) ?_, nofun⟩
    · rintro ⟨-, hdigits⟩
      exact absurd (hdigits 'n' (by decide)) (by decide)
    simp only [List.forall_mem_cons]
    refine ⟨.scalar (.unsigned 7), .typed rfl (by decide) ?_, .any (by decide) ?_, .emptyFlat,
      nofun⟩
    · rw [List.forall_mem_cons, List.forall_mem_cons]
      exact ⟨.inl ⟨rfl, rfl⟩, .inr (.signed (-5)), nofun⟩
    · simp only [List.forall_mem_cons]
      exact ⟨.string (by decide), .binary (by decide) (by decide), nofun⟩
  exact ⟨hcount, hsafe, decode_undoes_append hcount hsafe⟩

end Batch

end StoreClient

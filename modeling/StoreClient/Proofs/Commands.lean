import StoreClient.Proofs.RoundTrip
import StoreClient.Proofs.Wording

/-!
# Commands stay apart

The texts of a command carry no tags: only their sizes keep them apart, and only counts keep the
commands of a packet apart. That is enough. A packet that can be sent is read back as its
commands in order, each with exactly what its action says, whatever bytes that holds. So no
argument is ever taken for a command, and packets that say different things differ on the wire.
-/

namespace StoreClient

/-- What a text without a tag is read as: a text where it is the UTF-8 form of one, and plain bytes
otherwise. -/
inductive Value.ReadFrom : Bytes → Value → Prop where
  | text (text : String) : ReadFrom (Utf8.encode text) (.string text)
  | bytes {bytes : Bytes} : (∀ text, Utf8.encode text ≠ bytes) → ReadFrom bytes (.binary bytes)

/-- The entry is an array without tags that holds these texts, and nothing is wrong with it. -/
inductive Entry.Holds (texts : List Bytes) : Entry → Prop where
  | mk {items : List Value} : List.Forall₂ Value.ReadFrom texts items →
      Holds texts ⟨.array .any, .array .any items, none⟩

/-- The counts and sizes of what the actions say fit on the wire. -/
structure Packet.Fits (actions : List Action) : Prop where
  actions_lt : actions.length < 2 ^ 64
  texts_lt : ∀ action ∈ actions, ∀ texts, action.Says texts →
    texts.length < 2 ^ 64 ∧ ∀ text ∈ texts, text.length < 2 ^ 64

namespace Value

variable {v : Value} {bytes other : Bytes}

/-- What arrives of a segment: its payload as a text, or as bytes that are none. Its type
does not arrive. -/
def rendered (v : Value) : Value :=
  match Utf8.decode? v.payload with
  | some text => .string text
  | none => .binary v.payload

/-- What arrives of a segment is read from its payload. -/
theorem readFrom_rendered (v : Value) : ReadFrom v.payload v.rendered := by
  unfold rendered
  cases hdecode : Utf8.decode? v.payload with
  | some text =>
    rw [← Utf8.encode_of_decode? hdecode]
    exact .text text
  | none => exact .bytes (Utf8.decode?_eq_none_iff.mp hdecode)

/-- A value is read from one text only. -/
theorem leftUnique_readFrom : Relator.LeftUnique ReadFrom := by
  intro bytes v other h hother
  cases h <;> cases hother <;> rfl

/-- A text is read as one value only. -/
theorem rightUnique_readFrom : Relator.RightUnique ReadFrom := by
  intro bytes v other h hother
  cases h with
  | text text =>
    generalize hbytes : Utf8.encode text = bytes at hother
    cases hother with
    | text other => rw [Utf8.encode_inj hbytes]
    | bytes hnone => exact absurd hbytes (hnone text)
  | bytes hnone =>
    cases hother with
    | text text => exact absurd rfl (hnone text)
    | bytes => rfl

end Value

/-- An entry holds the texts of one command only. -/
theorem Entry.leftUnique_holds : Relator.LeftUnique Entry.Holds := by
  rintro texts entry others ⟨h⟩ ⟨hothers⟩
  exact List.left_unique_forall₂' Value.leftUnique_readFrom h hothers

/-- The texts of a command are held by one entry only. -/
theorem Entry.rightUnique_holds : Relator.RightUnique Entry.Holds := by
  rintro texts entry other ⟨h⟩ ⟨hother⟩
  rw [List.right_unique_forall₂' Value.rightUnique_readFrom h hother]

/-- The segments of a command are read back as their payloads. -/
theorem reads_segments (room : Nat) {segments : List Value}
    (hcount : segments.length < Numeral.bound)
    (hsize : ∀ v ∈ segments, v.payload.length < Numeral.bound) :
    Parse.Reads (Parse.array (room + 1) .any)
      (Wire.line (Numeral.digits (segments.map Value.payload).length) ++
        ((segments.map Value.payload).map Wire.item).flatten)
      (.array .any (segments.map Value.rendered)) := by
  have hitems : List.Forall₂
      (fun v taken => ∀ turn, Parse.Reads (Parse.arrayItem room .any turn) taken v)
      (segments.map Value.rendered) ((segments.map Value.payload).map Wire.item) := by
    rw [List.map_map, List.forall₂_map_left_iff, List.forall₂_map_right_iff, List.forall₂_same]
    intro v hv turn
    rw [Function.comp_apply, Wire.item_eq]
    exact Parse.Reads.anyItem (hsize v hv)
  have hrepeated := (Parse.Reads.repeated hitems).map (Value.array .any)
  rw [List.length_map] at hrepeated ⊢
  rw [Parse.array_succ]
  have hopening : Parse.Reads (Parse.arrayHeader ArrayShape.any.kind)
      (ArrayShape.any.opening segments.length) (.any, segments.length) :=
    ArrayShape.reads_opening (.untyped rfl) hcount
  exact hopening.bind hrepeated

/-- A command is read back as an entry with the payloads of its segments. -/
theorem reads_command {segments : List Value} (hcount : segments.length < Numeral.bound)
    (hsize : ∀ v ∈ segments, v.payload.length < Numeral.bound) :
    Parse.Reads Parse.entry (Wire.command (segments.map Value.payload))
      ⟨.array .any, .array .any (segments.map Value.rendered), none⟩ := by
  rw [Wire.command_eq]
  refine (Parse.Reads.itemType (.array .any)).bind ?_
  exact (reads_segments (maxDepth - 1) hcount hsize).bindPure (.pure _)

namespace Action

variable {action : Action} {texts : List Bytes}

/-- The entry that an action is read back as. -/
def entry (action : Action) : Entry :=
  ⟨.array .any, .array .any (action.segments.map Value.rendered), none⟩

/-- The entry of an action holds what the action says. -/
theorem Says.holds_entry (h : action.Says texts) : Entry.Holds texts action.entry := by
  obtain ⟨-, rfl⟩ := says_iff.mp h
  constructor
  rw [payloads, List.forall₂_map_left_iff, List.forall₂_map_right_iff, List.forall₂_same]
  exact fun v _ => v.readFrom_rendered

end Action

namespace Packet

variable {actions : List Action} {batch : Bytes} {commands : List (List Bytes)}

/-- Counts and sizes fit if those of the payloads do. -/
theorem Fits.of_payloads (hcount : actions.length < 2 ^ 64)
    (hpayloads : ∀ action ∈ actions, action.payloads.length < 2 ^ 64 ∧
      ∀ text ∈ action.payloads, text.length < 2 ^ 64) : Fits actions := by
  refine ⟨hcount, fun action haction texts hsaid => ?_⟩
  obtain ⟨-, rfl⟩ := Action.says_iff.mp hsaid
  exact hpayloads action haction

/-- The entries of actions hold what the actions say. -/
theorem holds_entries (h : List.Forall₂ Action.Says actions commands) :
    List.Forall₂ Entry.Holds commands (actions.map Action.entry) := by
  rw [List.forall₂_map_right_iff]
  exact (h.imp fun _ _ hsaid => hsaid.holds_entry).flip

/-- The bytes of a packet are read back as its commands. -/
theorem reads_encode (h : encode actions = .ok batch) (hfits : Fits actions) :
    Parse.Reads Parse.batch batch (actions.map Action.entry) := by
  have hsendable := isSendable_of_encode h
  rw [encode_eq hsendable] at h
  cases h
  have hentries : List.Forall₂ (fun entry taken => ∀ _ : Nat, Parse.Reads Parse.entry taken entry)
      (actions.map Action.entry)
      ((actions.map Action.payloads).map Wire.command) := by
    rw [List.map_map, List.forall₂_map_left_iff, List.forall₂_map_right_iff, List.forall₂_same]
    intro action haction turn
    have hsaid := Action.says_iff.mpr ⟨hsendable action haction, rfl⟩
    obtain ⟨hcount, hsizes⟩ := hfits.texts_lt action haction _ hsaid
    rw [Action.payloads, List.length_map] at hcount
    exact reads_command hcount (List.forall_mem_map.mp hsizes)
  have hrepeated := Parse.Reads.repeated hentries
  rw [List.length_map] at hrepeated
  rw [Wire.batch_eq, List.length_map]
  exact (Batch.reads_batchHeader hfits.actions_lt).bind hrepeated

/-- A packet is decoded to one entry for each of its commands, in order and without a local
error, and no byte behind it is taken. -/
theorem decode_encode (h : encode actions = .ok batch) (hfits : Fits actions) (rest : Bytes) :
    Batch.decode (batch ++ rest) = .complete (actions.map Action.entry) batch.length := by
  rw [Batch.decode_eq_complete_iff]
  refine ⟨rest, reads_encode h hfits rest, ?_⟩
  exact Nat.eq_sub_of_add_eq List.length_append.symm

/-- Commands can be neither injected nor merged. Whatever bytes stand behind a packet, it is
read back as one entry for each of its actions, which holds just what that action says; and a
packet that says something else is never sent as the same bytes. -/
theorem commands_stay_apart (h : encode actions = .ok batch) (hfits : Fits actions) :
    ∃ commands entries, List.Forall₂ Action.Says actions commands ∧
      List.Forall₂ Entry.Holds commands entries ∧
      (∀ rest, Batch.decode (batch ++ rest) = .complete entries batch.length) ∧
      ∀ others otherCommands, Fits others → List.Forall₂ Action.Says others otherCommands →
        otherCommands ≠ commands → encode others ≠ .ok batch := by
  obtain ⟨commands, hsaid, -⟩ := encode_eq_ok_iff.mp h
  have hholds := holds_entries hsaid
  have hdecode := decode_encode h hfits
  refine ⟨commands, _, hsaid, hholds, hdecode, ?_⟩
  intro others otherCommands hothers hothersSaid hne hsame
  have hentries : others.map Action.entry = actions.map Action.entry := by
    have hboth := hdecode []
    rw [decode_encode hsame hothers []] at hboth
    injection hboth
  have hothersHold := holds_entries hothersSaid
  rw [hentries] at hothersHold
  exact hne (List.left_unique_forall₂' Entry.leftUnique_holds hothersHold hholds)

/-- A key that holds the bytes of a second command, and binary data that looks like a
header. -/
def deceptive : List Action := [.get "k\n~1\n5\nFLUSH", .set "\x00" (.binary [255, 10, 42])]

/-- The commands that the deceptive key imitates. -/
def imitated : List Action :=
  [.get "k", .command [.string "FLUSH"], .set "\x00" (.binary [255, 10, 42])]

/-- What the deceptive actions say. -/
def deceptiveCommands : List (List Bytes) :=
  [[Utf8.encode "GET", Utf8.encode "k\n~1\n5\nFLUSH"],
    [Utf8.encode "SET", Utf8.encode "\x00", [255, 10, 42]]]

/-- The deceptive key stays a key, and the binary data stays as it is. -/
theorem commands_stay_apart_deceptive :
    ∃ batch, encode deceptive = .ok batch ∧ Fits deceptive ∧ Fits imitated ∧
      (∀ rest, Batch.decode (batch ++ rest) = .complete
        [⟨.array .any, .array .any [.string "GET", .string "k\n~1\n5\nFLUSH"], none⟩,
          ⟨.array .any, .array .any [.string "SET", .string "\x00", .binary [255, 10, 42]], none⟩]
        batch.length) ∧
      encode imitated ≠ .ok batch := by
  have hfits : Fits deceptive := .of_payloads (by decide) (by decide)
  have himitated : Fits imitated := .of_payloads (by decide) (by decide)
  obtain ⟨batch, hbatch⟩ : ∃ batch, encode deceptive = .ok batch := ⟨_, rfl⟩
  obtain ⟨commands, entries, hsaid, hholds, hdecode, hothers⟩ := commands_stay_apart hbatch hfits
  have hdeceptive : List.Forall₂ Action.Says deceptive deceptiveCommands :=
    .cons (.get _) (.cons (.set _ (.binary _)) .nil)
  obtain rfl := List.right_unique_forall₂' Action.says_rightUnique hdeceptive hsaid
  have hnone : ∀ text, Utf8.encode text ≠ [255, 10, 42] :=
    Utf8.decode?_eq_none_iff.mp (by decide)
  have hentries := List.right_unique_forall₂' Entry.rightUnique_holds hholds
    (.cons ⟨.cons (.text _) (.cons (.text _) .nil)⟩
      (.cons ⟨.cons (.text _) (.cons (.text _) (.cons (.bytes hnone) .nil))⟩ .nil))
  subst hentries
  have himitatedSaid : List.Forall₂ Action.Says imitated _ :=
    .cons (.get _) (.cons (.command (.cons (.string _) .nil)) (.cons (.set _ (.binary _)) .nil))
  refine ⟨batch, hbatch, hfits, himitated, hdecode, hothers imitated _ himitated himitatedSaid ?_⟩
  intro hsame
  exact absurd (congrArg List.length hsame) (by decide)

end Packet

end StoreClient

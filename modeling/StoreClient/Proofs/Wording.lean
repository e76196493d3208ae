import StoreClient.Packet
import StoreClient.Proofs.Texts
import StoreClient.Proofs.Writing
import Mathlib.Data.List.Forall2

/-!
# The wording of actions

Which words and arguments an action is sent as, said for each action on its own, and how they
stand on the wire: a batch is a header and a command for each action, a command is a header and
its texts, and each text stands behind its size. A packet that can be sent is sent as just that.
-/

namespace StoreClient

/-- The text that a scalar is sent as in a command: a text in UTF-8, binary data as it is, and
numbers and response codes in decimal. Other values have none. -/
inductive Value.Spells : Value → Bytes → Prop where
  | string (text : String) : Spells (.string text) (Utf8.encode text)
  | binary (bytes : Bytes) : Spells (.binary bytes) bytes
  | unsigned (n : UInt64) : Spells (.unsigned n) (Utf8.encode (toString n.toNat))
  | signed (n : Int64) : Spells (.signed n) (Utf8.encode (toString n.toInt))
  | float (x : Binary32) : Spells (.float x) x.text
  | code (c : ReplyCode) : Spells (.code c) (Utf8.encode (toString c.number))
  | errorText (text : String) : Spells (.errorText text) (Utf8.encode text)

/-- The texts that an action is sent as: its words, and behind them its arguments. -/
inductive Action.Says : Action → List Bytes → Prop where
  | heya : Says (.heya none) [Utf8.encode "HEYA"]
  | echo (text : String) : Says (.heya (some text)) [Utf8.encode "HEYA", Utf8.encode text]
  | login (username token : String) :
      Says (.login username token)
        [Utf8.encode "AUTH", Utf8.encode "LOGIN", Utf8.encode username, Utf8.encode token]
  | use (path : String) : Says (.use path) [Utf8.encode "USE", Utf8.encode path]
  | protocol :
      Says (.sysInfo .protocol) [Utf8.encode "SYS", Utf8.encode "INFO", Utf8.encode "PROTOCOL"]
  | version :
      Says (.sysInfo .version) [Utf8.encode "SYS", Utf8.encode "INFO", Utf8.encode "VERSION"]
  | get (key : String) : Says (.get key) [Utf8.encode "GET", Utf8.encode key]
  | set (key : String) {value : Value} {text : Bytes} : value.Spells text →
      Says (.set key value) [Utf8.encode "SET", Utf8.encode key, text]
  | del (keys : List String) : Says (.del keys) (Utf8.encode "DEL" :: keys.map Utf8.encode)
  | exists (keys : List String) :
      Says (.exists keys) (Utf8.encode "EXISTS" :: keys.map Utf8.encode)
  | command {segments : List Value} {texts : List Bytes} :
      List.Forall₂ Value.Spells segments texts → Says (.command segments) texts

namespace Wire

/-- A number in decimal, on a line of its own. -/
def count (n : Nat) : Bytes := Utf8.encode (toString n) ++ ['\n'.toUInt8]

/-- A text of a command as it stands on the wire: its size, and the text on a line. -/
def item (text : Bytes) : Bytes := count text.length ++ text ++ ['\n'.toUInt8]

/-- A command as it stands on the wire: a tilde, the number of its texts, and the texts. -/
def command (texts : List Bytes) : Bytes :=
  '~'.toUInt8 :: (count texts.length ++ (texts.map item).flatten)

/-- A batch of commands as it stands on the wire: an asterisk, their number, and the commands. -/
def batch (commands : List (List Bytes)) : Bytes :=
  '*'.toUInt8 :: (count commands.length ++ (commands.map command).flatten)

/-- The line of a number holds its digits. -/
theorem count_eq (n : Nat) : count n = line (Numeral.digits n) := by
  rw [count, Utf8.encode_toString]
  rfl

/-- An item is written in two lines. -/
theorem item_eq (text : Bytes) : item text = line (Numeral.digits text.length) ++ line text := by
  rw [item, count_eq, List.append_assoc]
  rfl

/-- A command is written as the header of an array without tags, and its items. -/
theorem command_eq (texts : List Bytes) :
    command texts = header .any texts.length ++ (texts.map item).flatten := by
  rw [command, count_eq]
  rfl

/-- A batch is written as its header and its commands. -/
theorem batch_eq (commands : List (List Bytes)) :
    batch commands = batchHeader commands.length ++ (commands.map command).flatten := by
  rw [batch, count_eq]
  rfl

end Wire

/-- The bytes are a batch of what the actions say. -/
def Packet.Says (actions : List Action) (bytes : Bytes) : Prop :=
  ∃ commands, List.Forall₂ Action.Says actions commands ∧ bytes = Wire.batch commands

/-- If a relation is a function wherever it holds, then so it is between lists. -/
theorem forall₂_iff_map {α β : Type} {relation : α → β → Prop} {holds : α → Prop} {f : α → β}
    (h : ∀ a b, relation a b ↔ holds a ∧ f a = b) {items : List α} {images : List β} :
    List.Forall₂ relation items images ↔ (∀ a ∈ items, holds a) ∧ items.map f = images := by
  have hrelation : relation = fun a b => holds a ∧ f a = b := by
    funext a b
    exact propext (h a b)
  have himages : List.Forall₂ (fun a b => f a = b) items images ↔ items.map f = images := by
    rw [← List.forall₂_map_left_iff (R := Eq), List.forall₂_eq_eq_eq]
  rw [hrelation, List.forall₂_and_left, himages]

namespace Value

variable {v : Value} {text : Bytes}

/-- The payload that a scalar is sent with; other values have none. -/
def payload (v : Value) : Bytes := (v.payload?.map Prod.snd).getD []

/-- The value is a scalar, which can be sent. -/
def IsScalar (v : Value) : Prop := ∃ type, v.payload? = some (type, v.payload)

/-- A scalar spells its payload and nothing else. -/
theorem spells_iff : v.Spells text ↔ v.IsScalar ∧ v.payload = text := by
  constructor
  · intro h
    have hpayload : ∃ type, v.payload? = some (type, text) := by
      cases h with
      | unsigned n => exact ⟨_, by rw [payload?, Utf8.encode_toString]⟩
      | signed n => exact ⟨_, by rw [payload?, Utf8.encode_toString_int]⟩
      | code c => exact ⟨_, by rw [payload?, Utf8.encode_toString_int]⟩
      | _ => exact ⟨_, rfl⟩
    obtain ⟨type, htype⟩ := hpayload
    have htext : v.payload = text := by simp [payload, htype]
    exact ⟨⟨type, htext ▸ htype⟩, htext⟩
  · rintro ⟨⟨type, h⟩, rfl⟩
    cases v with
    | null | array | unsupported => cases h
    | unsigned n =>
      have hspells := Spells.unsigned n
      rw [Utf8.encode_toString] at hspells
      exact hspells
    | signed n =>
      have hspells := Spells.signed n
      rw [Utf8.encode_toString_int] at hspells
      exact hspells
    | code c =>
      have hspells := Spells.code c
      rw [Utf8.encode_toString_int] at hspells
      exact hspells
    | _ => constructor

/-- Scalars spell their payloads, one by one. -/
theorem forall_spells_iff {values : List Value} {texts : List Bytes} :
    List.Forall₂ Spells values texts ↔
      (∀ v ∈ values, v.IsScalar) ∧ values.map payload = texts :=
  forall₂_iff_map @spells_iff

/-- Texts are spelled in UTF-8, one by one. -/
theorem forall_spells_strings_iff (words : List String) {texts : List Bytes} :
    List.Forall₂ Spells (words.map string) texts ↔ words.map Utf8.encode = texts := by
  have hscalars : ∀ v ∈ words.map string, v.IsScalar :=
    List.forall_mem_map.mpr fun _ _ => ⟨_, rfl⟩
  rw [forall_spells_iff, and_iff_right hscalars, List.map_map]
  rfl

end Value

namespace Action

variable {action : Action} {texts : List Bytes}

/-- The payloads of what is sent for an action. -/
def payloads (action : Action) : List Bytes := action.segments.map Value.payload

/-- What is sent for the action can be sent. -/
def IsSendable (action : Action) : Prop := ∀ v ∈ action.segments, v.IsScalar

/-- What an action says is what its segments spell, one by one. -/
theorem says_iff_spells : action.Says texts ↔ List.Forall₂ Value.Spells action.segments texts := by
  have hwords := fun words => @Value.forall_spells_strings_iff words texts
  constructor
  · intro h
    cases h with
    | heya => exact (hwords ["HEYA"]).mpr rfl
    | echo text => exact (hwords ["HEYA", text]).mpr rfl
    | login username token => exact (hwords ["AUTH", "LOGIN", username, token]).mpr rfl
    | use path => exact (hwords ["USE", path]).mpr rfl
    | protocol => exact (hwords ["SYS", "INFO", "PROTOCOL"]).mpr rfl
    | version => exact (hwords ["SYS", "INFO", "VERSION"]).mpr rfl
    | get key => exact (hwords ["GET", key]).mpr rfl
    | set key hvalue => exact .cons (.string "SET") (.cons (.string key) (.cons hvalue .nil))
    | del keys => exact (hwords ("DEL" :: keys)).mpr rfl
    | «exists» keys => exact (hwords ("EXISTS" :: keys)).mpr rfl
    | command h => exact h
  · intro h
    cases action with
    | heya echo =>
      cases echo with
      | none =>
        obtain rfl := (hwords ["HEYA"]).mp h
        exact .heya
      | some text =>
        obtain rfl := (hwords ["HEYA", text]).mp h
        exact .echo text
    | login username token =>
      obtain rfl := (hwords ["AUTH", "LOGIN", username, token]).mp h
      exact .login username token
    | use path =>
      obtain rfl := (hwords ["USE", path]).mp h
      exact .use path
    | sysInfo property =>
      obtain rfl := (hwords ["SYS", "INFO", property.word]).mp h
      cases property with
      | protocol => exact .protocol
      | version => exact .version
    | get key =>
      obtain rfl := (hwords ["GET", key]).mp h
      exact .get key
    | set key value =>
      cases h with
      | cons hverb h =>
        cases hverb
        cases h with
        | cons hkey h =>
          cases hkey
          cases h with
          | cons hvalue h =>
            cases h
            exact .set key hvalue
    | del keys =>
      obtain rfl := (hwords ("DEL" :: keys)).mp h
      exact .del keys
    | «exists» keys =>
      obtain rfl := (hwords ("EXISTS" :: keys)).mp h
      exact .exists keys
    | command segments => exact .command h

/-- An action that can be sent says its payloads and nothing else. -/
theorem says_iff : action.Says texts ↔ action.IsSendable ∧ action.payloads = texts := by
  rw [says_iff_spells, Value.forall_spells_iff]
  rfl

/-- An action says one thing only. -/
theorem says_rightUnique : Relator.RightUnique Says := by
  intro action texts others h hothers
  rw [← (says_iff.mp h).2, ← (says_iff.mp hothers).2]

/-- Actions say their payloads, one by one. -/
theorem forall_says_iff {actions : List Action} {commands : List (List Bytes)} :
    List.Forall₂ Says actions commands ↔
      (∀ action ∈ actions, action.IsSendable) ∧ actions.map payloads = commands :=
  forall₂_iff_map @says_iff

end Action

/-- Only scalars can be written as items without tags. -/
theorem isScalar_of_appendItem_any {v : Value} {buffer after : Bytes}
    (h : appendItem .any v buffer = .ok after) : v.IsScalar := by
  cases v with
  | null => cases h
  | array => cases h
  | unsupported tag => simp [appendItem, ArrayShape.refuses, Value.isNull, Value.isArray,
      Value.append] at h
  | _ => exact ⟨_, rfl⟩

/-- An item without a tag is written as its size and its payload. -/
theorem writes_item {v : Value} (h : v.IsScalar) :
    Writes (appendItem .any v) (Wire.item v.payload) := by
  obtain ⟨type, h⟩ := h
  have hnull : v.isNull = false := by cases v <;> first | rfl | cases h
  have harray : v.isArray = false := by cases v <;> first | rfl | cases h
  rw [Wire.item_eq]
  refine writes_appendItem ?_ hnull (Value.writes_scalar h false)
  simp [ArrayShape.refuses, hnull, harray]

/-- If a chain of writers succeeds, every one of them does. -/
theorem exists_of_foldlM_eq_ok {α : Type} (write : α → Bytes → Except EncodeError Bytes)
    {items : List α} {buffer after : Bytes}
    (h : items.foldlM (fun buffer a => write a buffer) buffer = .ok after) :
    ∀ a ∈ items, ∃ before next, write a before = .ok next := by
  induction items generalizing buffer with
  | nil => nofun
  | cons first rest ih =>
    rw [List.foldlM_cons] at h
    cases hfirst : write first buffer with
    | error e =>
      rw [hfirst] at h
      cases h
    | ok longer =>
      rw [hfirst] at h
      intro a ha
      rcases List.mem_cons.mp ha with rfl | ha
      · exact ⟨buffer, longer, hfirst⟩
      · exact ih h a ha

/-- A command that can be sent holds nothing but scalars. -/
theorem isScalar_of_appendCommand {segments : List Value} {buffer after : Bytes}
    (h : appendCommand segments buffer = .ok after) : ∀ v ∈ segments, v.IsScalar := by
  rw [appendCommand, Value.append, if_pos rfl] at h
  simp only [appendItems_eq] at h
  intro v hv
  obtain ⟨before, next, hitem⟩ := exists_of_foldlM_eq_ok (appendItem .any) h v hv
  exact isScalar_of_appendItem_any hitem

/-- A command that can be sent is written as its envelope and the payloads of its segments. -/
theorem writes_command {segments : List Value} (h : ∀ v ∈ segments, v.IsScalar) :
    Writes (appendCommand segments) (Wire.command (segments.map Value.payload)) := by
  have hitems : List.Forall₂ (fun v => Writes (appendItem .any v)) segments
      ((segments.map Value.payload).map Wire.item) := by
    rw [List.map_map, List.forall₂_map_right_iff, List.forall₂_same]
    exact fun v hv => writes_item (h v hv)
  have hwrites := Writes.array (.untyped rfl) hitems
  rw [Wire.command_eq, List.length_map]
  exact hwrites

namespace Packet

variable {actions : List Action} {bytes : Bytes}

/-- A packet of actions that can be sent is written as its header and its commands. -/
theorem encode_eq (h : ∀ action ∈ actions, action.IsSendable) :
    encode actions = .ok (Wire.batch (actions.map Action.payloads)) := by
  have hwrites : List.Forall₂ (fun action => Writes (Action.append action)) actions
      ((actions.map Action.payloads).map Wire.command) := by
    rw [List.map_map, List.forall₂_map_right_iff, List.forall₂_same]
    exact fun action haction => writes_command (h action haction)
  have hencode := Writes.foldlM hwrites (appendBatchHeader actions.length [])
  rw [Wire.batch_eq, List.length_map]
  exact hencode

/-- If a packet can be sent, so can each of its actions. -/
theorem isSendable_of_encode (h : encode actions = .ok bytes) :
    ∀ action ∈ actions, action.IsSendable := by
  intro action haction
  obtain ⟨before, next, hcommand⟩ := exists_of_foldlM_eq_ok Action.append h action haction
  exact isScalar_of_appendCommand hcommand

/-- A packet is sent as what its actions say. If one of them says nothing, it cannot be sent. -/
theorem encode_eq_ok_iff : encode actions = .ok bytes ↔ Says actions bytes := by
  constructor
  · intro h
    have hsendable := isSendable_of_encode h
    rw [encode_eq hsendable] at h
    cases h
    exact ⟨_, Action.forall_says_iff.mpr ⟨hsendable, rfl⟩, rfl⟩
  · rintro ⟨commands, hsaid, rfl⟩
    obtain ⟨hsendable, rfl⟩ := Action.forall_says_iff.mp hsaid
    exact encode_eq hsendable

end Packet

end StoreClient

import StoreClient.Packet
import StoreClient.Proofs.Writing

/-!
# Writing in place

The library writes by answering with a longer buffer. A program with one shared buffer puts a value
into it piece by piece, and finds out on the way that a part of it cannot be sent. This file follows
such a writer: where it cuts the buffer back, and that it then comes to what the library says. The
buffer is never left with a part of a value, so what was put before is safe.
-/

namespace StoreClient

/-- A writer that works on a buffer in place. What it put before it failed is still there. -/
abbrev InPlace := ExceptT EncodeError (StateM Bytes)

namespace InPlace

/-- Put bytes behind the buffer. -/
def put (bytes : Bytes) : InPlace Unit := modify (· ++ bytes)

/-- Cut the buffer where the writer started if it fails. -/
def orCutBack (writer : InPlace Unit) : InPlace Unit := fun buffer =>
  match writer buffer with
  | (.error e, pieces) => (.error e, pieces.take buffer.length)
  | written => written

/-- Take the last byte back, and fail. -/
def retract (e : EncodeError) : InPlace Unit := do
  modify List.dropLast
  throw e

/-- Put the type of the elements behind the tag of an array, where the header names it. If it does
not do, the tag is taken back. -/
def elementTag (kind : ArrayKind) (element : Option ScalarType) : InPlace Unit :=
  if kind.isTyped then
    match element with
    | none => retract (.missingElementType kind)
    | some type =>
      if type.isElementType then put [type.tag] else retract (.invalidElementType type)
  else pure ()

/-- Put the header of an array. -/
def header (kind : ArrayKind) (element : Option ScalarType) (count : Nat) : InPlace Unit := do
  put [kind.tag]
  elementTag kind element
  put (Wire.line (Numeral.digits count))

/-- Put a scalar. -/
def scalar (type : ScalarType) (payload : Bytes) (typed : Bool) : InPlace Unit := do
  if typed then put [type.tag]
  put (Wire.line (Numeral.digits payload.length))
  put (Wire.line payload)

mutual

/-- Put a value, piece by piece. -/
def value (v : Value) (typed : Bool) : InPlace Unit :=
  match v with
  | .null => throw (.unsupportedValue "null")
  | .string text => scalar .string (Utf8.encode text) typed
  | .binary bytes => scalar .binary bytes typed
  | .unsigned n => scalar .unsigned (Numeral.digits n.toNat) typed
  | .signed n => scalar .signed (Numeral.signedDigits n.toInt) typed
  | .float x => scalar .float x.text typed
  | .code c => scalar .responseCode (Numeral.signedDigits c.number) typed
  | .errorText text => scalar .responseCode (Utf8.encode text) typed
  | .array shape elements =>
    if typed then do
      header shape.kind shape.element? elements.length
      items shape elements
    else throw (.missingTypeInfo shape.kind)
  | .unsupported _ => throw (.unsupportedValue "unsupported")

/-- Put the items of an array of a given shape, up to the first one that cannot be written. -/
def items (shape : ArrayShape) (elements : List Value) : InPlace Unit :=
  match elements with
  | [] => pure ()
  | item :: rest =>
    match shape.refuses item with
    | some e => throw e
    | none => do
      (if item.isNull && shape.element?.isSome then put (Wire.line Wire.nullMarker)
        else value item shape.tagsItems)
      items shape rest

end

/-- Put a command: an array of byte strings. -/
def command (segments : List Value) : InPlace Unit :=
  orCutBack do
    header .any none segments.length
    items .any segments

/-- Whatever the buffer holds, the writer puts these bytes behind it and ends with this result. -/
def Puts (writer : InPlace Unit) (result : Except EncodeError Unit) (bytes : Bytes) : Prop :=
  ∀ buffer, writer buffer = (result, buffer ++ bytes)

/-- In place, one writer runs on the buffer that the other one left, unless that one failed. -/
theorem bind_run {α β : Type} (writer : InPlace α) (next : α → InPlace β) (buffer : Bytes) :
    (writer >>= next) buffer =
      match writer buffer with
      | (.ok a, middle) => next a middle
      | (.error e, left) => (.error e, left) := by
  change (ExceptT.bindCont next (writer buffer).1).run (writer buffer).2 = _
  cases h : writer buffer with
  | mk result left =>
    cases result with
    | ok a => rfl
    | error e => rfl

namespace Puts

variable {writer next : InPlace Unit} {result : Except EncodeError Unit} {e : EncodeError}
  {bytes first second : Bytes}

/-- Bytes are put as they are. -/
theorem put (bytes : Bytes) : (InPlace.put bytes).Puts (.ok ()) bytes := fun _ => rfl

/-- Nothing is put. -/
theorem pure : Puts (Pure.pure ()) (.ok ()) [] := fun buffer => by
  rw [List.append_nil]
  rfl

/-- A writer that fails at once puts nothing. -/
theorem throw (e : EncodeError) : Puts (throwThe EncodeError e) (.error e) [] := fun buffer => by
  rw [List.append_nil]
  rfl

/-- Two writers in a row put the bytes of each. -/
theorem bind (h : writer.Puts (.ok ()) first) (hnext : next.Puts result second) :
    Puts (do writer; next) result (first ++ second) := fun buffer => by
  rw [bind_run, h, ← List.append_assoc]
  exact hnext (buffer ++ first)

/-- Nothing comes behind a writer that fails. -/
theorem stop (h : writer.Puts (.error e) bytes) (next : InPlace Unit) :
    Puts (do writer; next) (.error e) bytes := fun buffer => by
  rw [bind_run, h]

end Puts

/-- In place the writer comes to what the other one says. Where that one fails, pieces may be
left. -/
inductive Matches (writer : InPlace Unit) (append : Bytes → Except EncodeError Bytes) : Prop
  | written {bytes : Bytes} : writer.Puts (.ok ()) bytes → Writes append bytes →
      Matches writer append
  | failed {e : EncodeError} {pieces : Bytes} : writer.Puts (.error e) pieces →
      (∀ buffer, append buffer = .error e) → Matches writer append

/-- In place the writer comes to what the other one says, and leaves no pieces. Whatever the buffer
holds, it puts the same bytes behind it, or it fails with the same error and leaves the buffer as it
was. -/
def AppendsWhole (writer : InPlace Unit) (append : Bytes → Except EncodeError Bytes) : Prop :=
  (∃ bytes, ∀ buffer, writer buffer = (.ok (), buffer ++ bytes) ∧
    append buffer = .ok (buffer ++ bytes)) ∨
  ∃ e, ∀ buffer, writer buffer = (.error e, buffer) ∧ append buffer = .error e

section Matching

variable {writer next : InPlace Unit} {append more : Bytes → Except EncodeError Bytes}

/-- A writer that leaves no pieces. -/
theorem AppendsWhole.matches (h : AppendsWhole writer append) : Matches writer append := by
  rcases h with ⟨bytes, hbytes⟩ | ⟨e, he⟩
  · exact .written (fun buffer => (hbytes buffer).1) fun buffer => (hbytes buffer).2
  · have hputs : writer.Puts (.error e) [] := by
      intro buffer
      rw [List.append_nil]
      exact (he buffer).1
    exact .failed hputs fun buffer => (he buffer).2

/-- Two writers in a row. -/
theorem Matches.bind (h : Matches writer append) (hnext : Matches next more) :
    Matches (do writer; next) fun buffer => append buffer >>= more := by
  cases h with
  | written hputs hwrites =>
    cases hnext with
    | written hputs' hwrites' => exact .written (hputs.bind hputs') (hwrites.bind hwrites')
    | failed hputs' herror =>
      refine .failed (hputs.bind hputs') fun buffer => ?_
      rw [hwrites]
      exact herror _
  | failed hputs herror =>
    refine .failed (hputs.stop next) fun buffer => ?_
    rw [herror]
    rfl

/-- A writer that cuts back its pieces leaves none. -/
theorem Matches.orCutBack (h : Matches writer append) :
    AppendsWhole (InPlace.orCutBack writer) append := by
  cases h with
  | @written bytes hputs hwrites =>
    refine .inl ⟨bytes, fun buffer => ⟨?_, hwrites buffer⟩⟩
    rw [InPlace.orCutBack, hputs]
  | @failed e pieces hputs herror =>
    refine .inr ⟨e, fun buffer => ⟨?_, herror buffer⟩⟩
    rw [InPlace.orCutBack, hputs]
    exact congrArg (Prod.mk (Except.error e)) List.take_left

/-- The header of an array is put as a whole. -/
theorem header_appendsWhole (kind : ArrayKind) (element : Option ScalarType) (count : Nat) :
    AppendsWhole (header kind element count) (appendArrayHeader kind element count) := by
  -- Taking one byte back is enough: the tag of the array is all that was put before the failure.
  have hretract {e : EncodeError} (h : elementTag kind element = retract e) (buffer : Bytes) :
      header kind element count buffer = (.error e, buffer) := by
    unfold header
    rw [h]
    exact congrArg (Prod.mk (Except.error e)) List.dropLast_concat
  have hputs {bytes : Bytes} (h : (elementTag kind element).Puts (.ok ()) bytes) :
      (header kind element count).Puts (.ok ())
        ([kind.tag] ++ (bytes ++ Wire.line (Numeral.digits count))) :=
    (Puts.put _).bind (h.bind (.put _))
  unfold appendArrayHeader
  split
  · rename_i htyped
    split
    · exact .inr ⟨_, fun buffer => ⟨hretract (if_pos htyped) buffer, rfl⟩⟩
    · rename_i type
      split
      · rename_i helement
        have htag : elementTag kind (some type) = put [type.tag] :=
          (if_pos htyped).trans (if_pos helement)
        exact .inl ⟨_, fun buffer => ⟨hputs (by rw [htag]; exact .put _) buffer, rfl⟩⟩
      · rename_i helement
        exact .inr ⟨_, fun buffer =>
          ⟨hretract ((if_pos htyped).trans (if_neg helement)) buffer, rfl⟩⟩
  · rename_i htyped
    have htag : elementTag kind element = pure () := if_neg htyped
    exact .inl ⟨_, fun buffer => ⟨hputs (by rw [htag]; exact .pure) buffer, rfl⟩⟩

/-- A scalar is put with its type and payload. -/
theorem scalar_puts (type : ScalarType) (payload : Bytes) (typed : Bool) :
    (scalar type payload typed).Puts (.ok ()) (Wire.scalar type payload typed) := by
  have hsized := (Puts.put (Wire.line (Numeral.digits payload.length))).bind
    (Puts.put (Wire.line payload))
  cases typed with
  | false => exact hsized
  | true => exact (Puts.put [type.tag]).bind hsized

/-- Appending the items of an array is appending the first one, and then the others. -/
theorem appendItems_cons (shape : ArrayShape) (item : Value) (rest : List Value) :
    appendItems shape (item :: rest) =
      fun buffer => appendItem shape item buffer >>= appendItems shape rest := by
  funext buffer
  rw [appendItems_eq, List.foldlM_cons]
  exact congrArg (_ >>= ·) (funext fun buffer => (appendItems_eq shape rest buffer).symm)

/-- A scalar matches. -/
theorem matches_scalar {v : Value} {type : ScalarType} {payload : Bytes} {typed : Bool}
    (h : v.payload? = some (type, payload)) (hv : value v typed = scalar type payload typed) :
    Matches (value v typed) (v.append typed) := by
  rw [hv]
  exact .written (scalar_puts type payload typed) (Value.writes_scalar h typed)

mutual

/-- A value is put as it is appended. -/
theorem value_matches (v : Value) (typed : Bool) : Matches (value v typed) (v.append typed) := by
  -- The pieces of a nested array may be left by its writer. They are cut only around the whole.
  cases v with
  | null =>
    rw [value]
    exact .failed (.throw _) fun buffer => by rw [Value.append]
  | array shape elements =>
    rw [value]
    have happend : (Value.array shape elements).append typed = fun buffer =>
        if typed then appendArrayHeader shape.kind shape.element? elements.length buffer >>=
          appendItems shape elements
        else .error (.missingTypeInfo shape.kind) := by
      funext buffer
      rw [Value.append]
    rw [happend]
    cases typed with
    | true =>
      exact (header_appendsWhole _ _ _).matches.bind (items_matches shape elements)
    | false => exact .failed (.throw _) fun _ => rfl
  | unsupported tag =>
    rw [value]
    exact .failed (.throw _) fun buffer => by rw [Value.append]
  | _ => exact matches_scalar rfl (by rw [value])

/-- The items of an array are put as they are appended. -/
theorem items_matches (shape : ArrayShape) (elements : List Value) :
    Matches (items shape elements) (appendItems shape elements) := by
  cases elements with
  | nil =>
    rw [items]
    exact .written .pure fun buffer => by rw [appendItems, List.append_nil]
  | cons item rest =>
    rw [appendItems_cons, items]
    cases hrefused : shape.refuses item with
    | some e =>
      refine .failed (.throw _) fun buffer => ?_
      rw [appendItem, hrefused]
      rfl
    | none =>
      refine Matches.bind ?_ (items_matches shape rest)
      have happend : appendItem shape item = fun buffer =>
          if item.isNull && shape.element?.isSome then .ok (buffer ++ Wire.line Wire.nullMarker)
          else item.append shape.tagsItems buffer := by
        funext buffer
        rw [appendItem, hrefused]
      rw [happend]
      split
      · exact .written (.put _) fun _ => rfl
      · exact value_matches item shape.tagsItems

end

end Matching

/-- Put a value, as a whole or not at all. -/
def wholeValue (v : Value) (typed : Bool) : InPlace Unit := orCutBack (value v typed)

/-- Put the command of an action, as a whole or not at all. -/
def action (a : Action) : InPlace Unit := command a.segments

/-- A command is put as a whole. -/
theorem command_appendsWhole (segments : List Value) :
    AppendsWhole (command segments) (appendCommand segments) := by
  have happend : appendCommand segments = fun buffer =>
      appendArrayHeader .any none segments.length buffer >>= appendItems .any segments := by
    funext buffer
    rw [appendCommand, Value.append, if_pos rfl]
    rfl
  rw [happend]
  exact ((header_appendsWhole _ _ _).matches.bind (items_matches .any segments)).orCutBack

/-- Whatever a buffer holds, and however deep in a value or a command the first thing stands that
cannot be written, nothing of it is left in the buffer: a value, a header, a command and an action
are each put behind the buffer as a whole or not at all. Whether, which bytes, and which error does
not depend on the buffer. -/
theorem appends_whole :
    (∀ v typed, AppendsWhole (wholeValue v typed) (v.append typed)) ∧
    (∀ kind element count,
      AppendsWhole (header kind element count) (appendArrayHeader kind element count)) ∧
    (∀ segments, AppendsWhole (command segments) (appendCommand segments)) ∧
    ∀ a : Action, AppendsWhole (action a) a.append :=
  ⟨fun v typed => (value_matches v typed).orCutBack, header_appendsWhole, command_appendsWhole,
    fun a => command_appendsWhole a.segments⟩

/-- Without the cut, the pieces before a null inside an array would be left. -/
example :
    value (.array .nested [.binary [7], .null]) true [42] =
        (.error (.nullElement .nested), [42, 38, 50, 10, 63, 49, 10, 7, 10]) ∧
      wholeValue (.array .nested [.binary [7], .null]) true [42] =
        (.error (.nullElement .nested), [42]) := by
  constructor <;> cbv

end InPlace

end StoreClient

import StoreClient.Proofs.WellFormed

/-!
# What breaks a batch

A parser of the batch format stops for good with a fatal error, or inside an array with the
flaw of one scalar, which would stay with its entry outside of one. `Parse.Breaks` states a
property of every error that a parser breaks with; it is proved for each parser of the format.
-/

namespace StoreClient

/-- The error concerns one scalar alone, or one type that the client does not implement. -/
def ProtocolError.isFlaw : ProtocolError → Bool
  | sizeMismatch .. | notImplemented _ | unknownCode _ | invalidPayload .. => true
  | _ => false

/-- The error concerns one scalar alone, or one type that the client does not implement. -/
def Error.isFlaw : Error → Bool
  | protocol cause => cause.isFlaw
  | _ => false

/-- A flaw is not fatal. -/
theorem ProtocolError.isFatal_eq_false_of_isFlaw {e : ProtocolError} (h : e.isFlaw = true) :
    e.isFatal = false := by
  cases e with
  | sizeMismatch | notImplemented | unknownCode | invalidPayload => rfl
  | _ => cases h

namespace Parse

/-- Whatever breaks the parser has the property. -/
def Breaks {α : Type} (parser : Parse α) (property : ProtocolError → Prop) : Prop :=
  ∀ bytes e, parser bytes = .error (.broken e) → property e

/-- The error is fatal. -/
def IsGrave (e : ProtocolError) : Prop := e.isFatal = true

/-- The error is fatal, or it is a flaw. -/
def IsGraded (e : ProtocolError) : Prop := e.isFatal = true ∨ e.isFlaw = true

/-- A scalar has no flaw, or one that stays with it. -/
def OnlyFlaw (flawed : Flawed) : Prop := ∀ e, flawed.2 = some e → e.isFlaw = true

namespace Breaks

variable {α β : Type} {parser : Parse α} {property : ProtocolError → Prop}

/-- A result that is known already. -/
theorem pure (a : α) : Breaks (Pure.pure a) property := fun _ _ h => nomatch h

/-- A parser that always fails. -/
theorem fail {e : ProtocolError} (h : property e) : Breaks (Parse.fail e : Parse α) property := by
  intro bytes found hbroken
  cases hbroken
  exact h

/-- Bytes that are no packet are a grave matter. -/
theorem invalid (what : String) : Breaks (Parse.invalid what : Parse α) IsGrave := fail rfl

/-- A weaker property. -/
theorem mono {weaker : ProtocolError → Prop} (h : Breaks parser property)
    (hweaker : ∀ e, property e → weaker e) : Breaks parser weaker :=
  fun bytes e hbroken => hweaker e (h bytes e hbroken)

/-- Two parsers in a row, the second of which may rely on what the first one ensures. -/
theorem bindOf {next : α → Parse β} {result : α → Prop} (h : Breaks parser property)
    (hresult : Ensures parser result) (hnext : ∀ a, result a → Breaks (next a) property) :
    Breaks (parser >>= next) property := by
  intro bytes e hbroken
  rcases bind_eq_error.mp hbroken with hfirst | ⟨a, behind, hfirst, hsecond⟩
  · exact h bytes e hfirst
  · exact hnext a (hresult _ _ _ hfirst) behind e hsecond

/-- Two parsers in a row. -/
theorem bind {next : α → Parse β} (h : Breaks parser property)
    (hnext : ∀ a, Breaks (next a) property) : Breaks (parser >>= next) property := by
  have hany : Ensures parser fun _ => True := fun _ _ _ _ => trivial
  exact h.bindOf hany fun a _ => hnext a

/-- Changing the result changes nothing about the errors. -/
theorem map (f : α → β) (h : Breaks parser property) : Breaks (f <$> parser) property :=
  fun bytes e hbroken => h bytes e (map_eq_error.mp hbroken)

/-- A byte is there or not. -/
theorem byte : Breaks Parse.byte property := by
  intro bytes e hbroken
  cases bytes <;> cases hbroken

/-- A line is there or not. -/
theorem line : Breaks Parse.line property := fun bytes e hbroken =>
  absurd hbroken (line_ne_broken bytes e)

/-- So many bytes are there or not. -/
theorem take (n : Nat) : Breaks (Parse.take n) property := by
  intro bytes e hbroken
  simp only [Parse.take] at hbroken
  split at hbroken <;> cases hbroken

/-- A payload without its newline is a grave matter. -/
theorem payload (n : Nat) : Breaks (Parse.payload n) IsGrave := by
  refine (take n).bind fun bytes => bind (byte.bind fun b => ?_) fun _ => pure bytes
  split
  · exact pure ()
  · exact invalid _

/-- A count that is no number is a grave matter. -/
theorem countOf (what : String) (digits : Bytes) : Breaks (Parse.countOf what digits) IsGrave := by
  unfold Parse.countOf
  split
  · exact pure _
  · exact invalid _

/-- A count that is no number is a grave matter. -/
theorem count (what : String) : Breaks (Parse.count what) IsGrave :=
  line.bind fun digits => countOf what digits

/-- An unknown tag is a grave matter. -/
theorem itemType : Breaks Parse.itemType IsGrave := by
  refine byte.bind fun tag => ?_
  split
  · exact pure _
  · exact invalid _

/-- The header of a batch. -/
theorem batchHeader : Breaks Parse.batchHeader IsGrave := by
  refine byte.bind fun start => ?_
  split
  · exact count _
  · exact invalid _

/-- A line that holds a scalar breaks the batch only as a packet error. -/
theorem lineValue (type : ScalarType) (size : Nat) (text : Bytes) :
    Breaks (Parse.lineValue type size text) IsGrave := by
  unfold Parse.lineValue
  split
  · exact pure _
  · split
    · unfold responseCode
      split
      · dsimp only
        split
        · exact fail rfl
        · exact pure _
        · exact pure _
      · exact pure _
    · split
      · exact pure _
      · exact pure _

/-- The payload of a scalar. -/
theorem scalarBody (type : ScalarType) (size : Nat) :
    Breaks (Parse.scalarBody type size) IsGrave := by
  unfold Parse.scalarBody
  split
  · exact (payload size).bind fun bytes => pure _
  · exact line.bind fun text => lineValue type size text

/-- A scalar. -/
theorem scalar (type : ScalarType) : Breaks (Parse.scalar type) IsGrave :=
  (count _).bind fun size => scalarBody type size

end Breaks

/-- A size that does not match stays with its entry. -/
theorem onlyFlaw_sizeFlaw (value : Value) (size : Nat) (text : Bytes) :
    OnlyFlaw (value, sizeFlaw size text) := by
  intro e he
  simp only [sizeFlaw] at he
  split at he
  · cases he
  · cases he
    rfl

/-- What is wrong with a line stays with its entry. -/
theorem lineValue_onlyFlaw (type : ScalarType) (size : Nat) (text : Bytes) :
    Ensures (lineValue type size text) OnlyFlaw := by
  have hflaw {value : Value} {e : ProtocolError} (h : e.isFlaw = true) :
      OnlyFlaw (value, some e) := by
    rintro _ ⟨⟩
    exact h
  unfold lineValue
  split
  · exact .pure (hflaw rfl)
  · split
    · unfold responseCode
      split
      · dsimp only
        split
        · exact .fail _
        · exact .pure (onlyFlaw_sizeFlaw _ _ _)
        · exact .pure (hflaw rfl)
      · exact .pure nofun
    · split
      · exact .pure (onlyFlaw_sizeFlaw _ _ _)
      · exact .pure (hflaw rfl)

/-- What is wrong with the payload of a scalar stays with its entry. -/
theorem scalarBody_onlyFlaw (type : ScalarType) (size : Nat) :
    Ensures (scalarBody type size) OnlyFlaw := by
  unfold scalarBody
  split
  · refine .behind fun bytes => .pure ?_
    unfold sizedValue
    split
    · split
      · exact nofun
      · rintro _ ⟨⟩
        rfl
    · exact nofun
    · rintro _ ⟨⟩
      rfl
  · exact .behind fun text => lineValue_onlyFlaw type size text

/-- What is wrong with a scalar stays with its entry. -/
theorem scalar_onlyFlaw (type : ScalarType) : Ensures (scalar type) OnlyFlaw :=
  .behind fun size => scalarBody_onlyFlaw type size

namespace Breaks

variable {α : Type} {parser : Parse α}

/-- A grave matter is a known one. -/
theorem graded (h : Breaks parser IsGrave) : Breaks parser IsGraded := h.mono fun _ => .inl

/-- Inside an array the flaw of a scalar breaks the batch. -/
theorem unflawed {scalar : Parse Flawed} (h : Breaks scalar IsGrave)
    (hflaw : Ensures scalar OnlyFlaw) : Breaks (Parse.unflawed scalar) IsGraded := by
  refine h.graded.bindOf hflaw fun flawed hlocal => ?_
  obtain ⟨value, flaw⟩ := flawed
  cases flaw with
  | none => exact pure value
  | some e => exact fail (.inr (hlocal e rfl))

/-- The header of an array. -/
theorem arrayHeader (kind : ArrayKind) : Breaks (Parse.arrayHeader kind) IsGraded := by
  have hshape (shape : ArrayShape) (digits : Bytes) :
      Breaks (shapeOf shape digits) IsGraded := ((countOf _ digits).bind fun _ => pure _).graded
  have htyped (nonNull : Bool) (header : Bytes) :
      Breaks (typedShapeOf nonNull header) IsGraded := by
    unfold typedShapeOf
    split
    · exact (invalid _).graded
    · split
      · exact (invalid _).graded
      · split
        · exact hshape _ _
        · exact fail (.inr rfl)
  refine line.bind fun header => ?_
  cases kind with
  | nested => exact hshape _ _
  | flat => exact hshape _ _
  | typed => exact htyped _ _
  | any => exact hshape _ _
  | typedNonNull => exact htyped _ _

/-- The line in front of an element of a typed array. -/
theorem elementSize (element : ScalarType) : Breaks (Parse.elementSize element) IsGrave := by
  refine line.bind fun start => ?_
  split
  · exact (countOf _ _).map some
  · split
    · exact pure _
    · split
      · exact (countOf _ _).map some
      · split
        · exact fail rfl
        · exact (countOf _ _).map some

/-- The turns of a repetition that are still to come. -/
theorem repeatedGo {property : ProtocolError → Prop} {item : Nat → Parse α}
    (h : ∀ turn, Breaks (item turn) property) (n turn : Nat) (found : List α) :
    Breaks (Parse.repeated.go item n turn found) property := by
  induction n generalizing turn found with
  | zero => exact pure _
  | succ n ih => exact (h turn).bind fun a => ih (turn + 1) (a :: found)

/-- A scalar inside an array. -/
theorem arrayScalar (type : ScalarType) :
    Breaks (Parse.unflawed (Parse.scalar type)) IsGraded :=
  (scalar type).unflawed (scalar_onlyFlaw type)

/-- An element of a typed array. -/
theorem typedElement (element : ScalarType) (nonNull : Bool) :
    Breaks (Parse.typedElement element nonNull) IsGraded := by
  refine (elementSize element).graded.bind fun size => ?_
  cases size with
  | some size => exact (scalarBody element size).unflawed (scalarBody_onlyFlaw element size)
  | none =>
    dsimp only
    split
    · exact fail (.inl rfl)
    · exact pure _

/-- An item of a flat array. -/
theorem flatItem (index : Nat) : Breaks (Parse.flatItem index) IsGraded := by
  refine itemType.graded.bind fun type => ?_
  cases type with
  | scalar type => exact arrayScalar type
  | array kind => exact fail (.inl rfl)

/-- An item of an array without tags. -/
theorem anyItem : Breaks Parse.anyItem IsGraded := by
  have hitem : Breaks Parse.anyItem IsGrave :=
    (count _).bind fun size => (payload size).bind fun _ => pure _
  exact hitem.graded

/-- An array, by induction on the levels of arrays that it has room for. -/
theorem array (room : Nat) (kind : ArrayKind) : Breaks (Parse.array room kind) IsGraded := by
  induction room generalizing kind with
  | zero => exact fail (.inl rfl)
  | succ room ih =>
    have hitem (shape : ArrayShape) (index : Nat) :
        Breaks (arrayItem room shape index) IsGraded := by
      cases shape with
      | nested =>
        refine itemType.graded.bind fun type => ?_
        cases type with
        | scalar type => exact arrayScalar type
        | array kind => exact ih kind
      | flat => exact flatItem index
      | any => exact anyItem
      | typed element nonNull => exact typedElement element nonNull
    rw [array_succ]
    refine (arrayHeader kind).bind fun announced => map _ ?_
    exact repeatedGo (hitem announced.1) announced.2 0 []

end Breaks

end Parse

end StoreClient

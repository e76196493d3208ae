import StoreClient.Proofs.ReadingBack
import StoreClient.Proofs.Verdicts

/-!
# The decoder accepts its grammar

The decoder succeeds on exactly the strings of bytes that start with a batch whose leaves it
wants, and it takes that batch. `Recognizes` says so of a parser and a language. It is proved
for each parser of the format: whatever is taken is of the language, and whatever is of the
language is taken, whatever stands behind it.
-/

namespace StoreClient

open Grammar

namespace Parse

variable {type : ScalarType} {size : Nat} {body : Bytes}

/-- The parser takes exactly the strings of a language whose leaves the client wants, whatever
stands behind them. -/
structure Recognizes {α : Type} (parser : Parse α) (language : Language) : Prop where
  sound : ∀ {bytes a rest}, parser bytes = .ok (a, rest) →
    ∃ taken, bytes = taken ++ rest ∧ language.Accepts taken
  complete : ∀ {taken}, language.Accepts taken → ∃ a, Reads parser taken a

/-- A count is the number on a line. -/
theorem count_sound {what : String} {bytes rest : Bytes} {n : Nat}
    (h : count what bytes = .ok (n, rest)) :
    ∃ digits, Num n digits ∧ bytes = Wire.line digits ++ rest := by
  obtain ⟨digits, behind, hline, hdigits⟩ := bind_eq_ok.mp h
  obtain ⟨_, rfl⟩ := line_eq_ok hline
  rw [countOf] at hdigits
  cases hcount : Numeral.count? digits with
  | none =>
    rw [hcount] at hdigits
    cases hdigits
  | some n =>
    rw [hcount] at hdigits
    cases hdigits
    exact ⟨digits, num_iff.mpr hcount, rfl⟩

/-- The digits of a number are read as that number. -/
theorem reads_countOf {n : Nat} {digits : Bytes} (h : Num n digits) (what : String) :
    Reads (countOf what digits) [] n := by
  rw [countOf, num_iff.mp h]
  exact .pure n

/-- A number on a line is read as a count. -/
theorem reads_count {n : Nat} {digits : Bytes} (h : Num n digits) (what : String) :
    Reads (count what) (Wire.line digits) n :=
  (Reads.line h.newline_not_mem).bindPure (reads_countOf h what)

/-- The digits of a count are those of a number, and are taken before. -/
theorem countOf_sound {what : String} {digits bytes rest : Bytes} {n : Nat}
    (h : countOf what digits bytes = .ok (n, rest)) : Num n digits ∧ bytes = rest := by
  rw [countOf] at h
  cases hcount : Numeral.count? digits with
  | none =>
    rw [hcount] at h
    cases h
  | some n =>
    rw [hcount] at h
    cases h
    exact ⟨num_iff.mpr hcount, rfl⟩

/-- A payload is so many bytes and a newline. -/
theorem payload_sound {n : Nat} {bytes body rest : Bytes} (h : payload n bytes = .ok (body, rest)) :
    body.length = n ∧ bytes = Wire.line body ++ rest := by
  obtain ⟨taken, behind, htake, hend⟩ := bind_eq_ok.mp h
  obtain ⟨_, after, hnewline, hpure⟩ := bind_eq_ok.mp hend
  cases hpure
  simp only [take] at htake
  split at htake
  · rename_i hlength
    cases htake
    refine ⟨hlength, ?_⟩
    obtain ⟨b, tail, hbyte, hcheck⟩ := bind_eq_ok.mp hnewline
    have hdrop : bytes.drop n = b :: tail := by
      cases hbehind : bytes.drop n with
      | nil =>
        rw [hbehind] at hbyte
        cases hbyte
      | cons first others =>
        rw [hbehind] at hbyte
        cases hbyte
        rfl
    split at hcheck
    · rename_i hb
      cases hcheck
      rw [Wire.line, List.append_assoc, List.singleton_append, Wire.newline, ← hb, ← hdrop,
        List.take_append_drop]
    · cases hcheck
  · cases htake

/-- The header of a batch is its mark and a number on a line. -/
theorem batchHeader_sound {bytes rest : Bytes} {n : Nat} (h : batchHeader bytes = .ok (n, rest)) :
    ∃ digits, Num n digits ∧ bytes = '*'.toUInt8 :: (Wire.line digits ++ rest) := by
  obtain ⟨start, behind, hbyte, hcount⟩ := bind_eq_ok.mp h
  cases bytes with
  | nil => cases hbyte
  | cons first others =>
    cases hbyte
    by_cases hstart : start = '*'.toUInt8
    · rw [if_pos hstart] at hcount
      obtain ⟨digits, hnum, rfl⟩ := count_sound hcount
      exact ⟨digits, hnum, by rw [hstart]⟩
    · rw [if_neg hstart] at hcount
      cases hcount

/-- The header of a batch is read back. -/
theorem reads_batchHeader {n : Nat} {digits : Bytes} (h : Num n digits) :
    Reads batchHeader ('*'.toUInt8 :: Wire.line digits) n :=
  (Reads.byte '*'.toUInt8).bind (reads_count h "batch size")

/-- The body of a scalar is of its type and size, and is judged. -/
theorem scalarBody_sound {bytes rest : Bytes} {flawed : Flawed}
    (h : scalarBody type size bytes = .ok (flawed, rest)) :
    ∃ body, Body type size body ∧ bytes = Wire.line body ++ rest ∧
      Judges type size body flawed := by
  unfold scalarBody at h
  by_cases hsized : type.isSized = true
  · rw [if_pos hsized] at h
    obtain ⟨body, behind, hpayload, hpure⟩ := bind_eq_ok.mp h
    cases hpure
    obtain ⟨hlength, hbytes⟩ := payload_sound hpayload
    have hbody := (body_of_isSized hsized).mpr hlength
    exact ⟨body, hbody, hbytes, judges_sizedValue hsized⟩
  · rw [if_neg hsized] at h
    obtain ⟨body, behind, hline, hvalue⟩ := bind_eq_ok.mp h
    obtain ⟨hnewline, hbytes⟩ := line_eq_ok hline
    have hbody : Body type size body := (body_of_not_isSized hsized).mpr hnewline
    rcases judges_lineValue (by simpa using hsized) with ⟨_, hfail⟩ | ⟨found, hfound, hjudges⟩
    · rw [hfail] at hvalue
      cases hvalue
    · rw [hfound] at hvalue
      cases hvalue
      exact ⟨body, hbody, hbytes, hjudges⟩

/-- A body of its type and size is read and judged, unless it is a packet error. -/
theorem reads_scalarBody (hbody : Body type size body) (hpacket : ¬IsPacketError type body) :
    ∃ flawed, Reads (scalarBody type size) (Wire.line body) flawed ∧
      Judges type size body flawed := by
  unfold scalarBody
  by_cases hsized : type.isSized = true
  · obtain rfl := (body_of_isSized hsized).mp hbody
    rw [if_pos hsized]
    exact ⟨_, (Reads.payload body).bindPure (.pure _), judges_sizedValue hsized⟩
  · rw [if_neg hsized]
    have hnewline := (body_of_not_isSized hsized).mp hbody
    rcases judges_lineValue (by simpa using hsized) with ⟨hbreaks, _⟩ | ⟨flawed, hfound, hjudges⟩
    · exact absurd hbreaks hpacket
    · refine ⟨flawed, (Reads.line hnewline).bindPure ?_, hjudges⟩
      rw [hfound]
      exact .pure flawed

/-- A body that may stand in an array is read without a flaw. -/
theorem reads_flawless (hbody : Body type size body)
    (haccepted : (Leaf.scalar true type size body).IsAccepted) :
    ∃ value, Reads (scalarBody type size) (Wire.line body) (value, none) := by
  obtain ⟨⟨value, flaw⟩, hreads, hjudges⟩ := reads_scalarBody hbody haccepted.1
  have hnone : flaw = none := hjudges.flaw_eq_none_iff.mpr (haccepted.2 rfl)
  subst hnone
  exact ⟨value, hreads⟩

/-- Only a scalar without a flaw is let through. -/
theorem unflawed_eq_ok {parser : Parse Flawed} {bytes rest : Bytes} {value : Value}
    (h : unflawed parser bytes = .ok (value, rest)) : parser bytes = .ok ((value, none), rest) := by
  obtain ⟨⟨found, flaw⟩, behind, hparser, hpure⟩ := bind_eq_ok.mp h
  cases flaw with
  | none =>
    cases hpure
    exact hparser
  | some e => cases hpure

/-- The line in front of an element is the mark of a null, or a size behind the element's own
tag or behind none. -/
theorem elementSize_sound {element : ScalarType} {bytes rest : Bytes} {size : Option Nat}
    (h : elementSize element bytes = .ok (size, rest)) :
    size = none ∧ bytes = Wire.line [0] ++ rest ∨ ∃ n digits, size = some n ∧ Num n digits ∧
      (bytes = Wire.line digits ++ rest ∨ bytes = element.tag :: (Wire.line digits ++ rest)) := by
  obtain ⟨start, behind, hline, hstart⟩ := bind_eq_ok.mp h
  obtain ⟨_, hbytes⟩ := line_eq_ok hline
  have hcounted {digits : Bytes} (hok : (some <$> countOf "element size" digits) behind =
      .ok (size, rest)) : behind = rest ∧ ∃ n, size = some n ∧ Num n digits := by
    obtain ⟨n, hcount, hsize⟩ := map_eq_ok.mp hok
    obtain ⟨hnum, hrest⟩ := countOf_sound hcount
    exact ⟨hrest, n, hsize.symm, hnum⟩
  cases start with
  | nil =>
    obtain ⟨rfl, n, hsize, hnum⟩ := hcounted hstart
    exact .inr ⟨n, [], hsize, hnum, .inl hbytes⟩
  | cons first digits =>
    dsimp only at hstart
    by_cases hmark : first :: digits = [0]
    · rw [if_pos hmark] at hstart
      cases hstart
      rw [hmark] at hbytes
      exact .inl ⟨rfl, hbytes⟩
    · rw [if_neg hmark] at hstart
      by_cases hown : first = element.tag
      · rw [if_pos hown] at hstart
        obtain ⟨rfl, n, hsize, hnum⟩ := hcounted hstart
        rw [hown] at hbytes
        exact .inr ⟨n, digits, hsize, hnum, .inr hbytes⟩
      · rw [if_neg hown] at hstart
        cases hfound : ScalarType.ofTag? first with
        | some found =>
          rw [hfound] at hstart
          cases hstart
        | none =>
          rw [hfound] at hstart
          obtain ⟨rfl, n, hsize, hnum⟩ := hcounted hstart
          exact .inr ⟨n, _, hsize, hnum, .inl hbytes⟩

/-- A size without a tag is read in front of an element: it starts with a digit, which is the
tag of no type. -/
theorem reads_elementSize {n : Nat} {digits : Bytes} (h : Num n digits) (element : ScalarType) :
    Reads (elementSize element) (Wire.line digits) (some n) := by
  obtain ⟨first, rest, rfl, hfirst⟩ := h.exists_cons
  have htag := ScalarType.ofTag?_of_isDigit hfirst
  have hown : first ≠ element.tag := by
    rintro rfl
    rw [ScalarType.ofTag?_tag] at htag
    cases htag
  have hmark : first :: rest ≠ [0] := by
    rintro heq
    cases heq
    cases hfirst
  refine (Reads.line h.newline_not_mem).bindPure ?_
  simpa only [if_neg hmark, if_neg hown, htag] using (reads_countOf h "element size").map some

/-- A number behind a tag stays on its line. -/
theorem newline_not_mem_tagged (element : ScalarType) {n : Nat} {digits : Bytes}
    (h : Num n digits) : 10 ∉ element.tag :: digits := by
  have htag : element.tag ≠ 10 := by cases element <;> decide
  rw [List.mem_cons, not_or]
  exact ⟨htag.symm, h.newline_not_mem⟩

/-- A size behind the element's own tag is read. -/
theorem reads_taggedSize {n : Nat} {digits : Bytes} (h : Num n digits) (element : ScalarType) :
    Reads (elementSize element) (element.tag :: Wire.line digits) (some n) := by
  have hmark : element.tag :: digits ≠ [0] := by
    rintro heq
    cases element <;> cases heq
  refine (Reads.line (newline_not_mem_tagged element h)).bindPure ?_
  simpa only [if_neg hmark, if_true] using (reads_countOf h "element size").map some

/-- The digits behind the tag of an array are its length. -/
theorem shapeOf_sound {shape : ArrayShape} {digits bytes rest : Bytes}
    {announced : ArrayShape × Nat} (h : shapeOf shape digits bytes = .ok (announced, rest)) :
    announced.1 = shape ∧ Num announced.2 digits ∧ bytes = rest := by
  obtain ⟨n, after, hcount, hpure⟩ := bind_eq_ok.mp h
  cases hpure
  obtain ⟨hnum, hrest⟩ := countOf_sound hcount
  exact ⟨rfl, hnum, hrest⟩

/-- A shape is read with the number that is its length. -/
theorem reads_shapeOf {n : Nat} {digits : Bytes} (h : Num n digits) (shape : ArrayShape) :
    Reads (shapeOf shape digits) [] (shape, n) :=
  (reads_countOf h _).bindPure (.pure _)

/-- The header of a typed array names a supported type and its length. -/
theorem typedShapeOf_sound {nonNull : Bool} {header bytes rest : Bytes}
    {announced : ArrayShape × Nat}
    (h : typedShapeOf nonNull header bytes = .ok (announced, rest)) :
    (∃ element, announced.1 = .typed element nonNull) ∧
      Header announced.1 announced.2 header ∧ bytes = rest := by
  cases header with
  | nil => cases h
  | cons tag digits =>
    unfold typedShapeOf at h
    cases hfound : ScalarType.ofTag? tag with
    | none =>
      simp only [hfound] at h
      cases h
    | some element =>
      simp only [hfound] at h
      by_cases hsupported : element.isSupported = true
      · rw [if_pos hsupported] at h
        obtain ⟨hshape, hnum, hrest⟩ := shapeOf_sound h
        rw [hshape, ScalarType.eq_tag_of_ofTag? hfound]
        exact ⟨⟨element, rfl⟩, .typed (isSupported_iff.mp hsupported) hnum, hrest⟩
      · rw [if_neg hsupported] at h
        cases h

/-- The header of a typed array is read. -/
theorem reads_typedShapeOf {element : ScalarType} {n : Nat} {digits : Bytes}
    (hsupported : element ∉ foreignTypes) (hnum : Num n digits) (nonNull : Bool) :
    Reads (typedShapeOf nonNull (element.tag :: digits)) [] (.typed element nonNull, n) := by
  unfold typedShapeOf
  simp only [ScalarType.ofTag?_tag, if_pos (isSupported_iff.mpr hsupported)]
  exact reads_shapeOf hnum _

/-- The header of an array names a shape of its kind and its length. -/
theorem arrayHeader_sound {kind : ArrayKind} {bytes rest : Bytes} {announced : ArrayShape × Nat}
    (h : arrayHeader kind bytes = .ok (announced, rest)) :
    ∃ header, announced.1.kind = kind ∧ Header announced.1 announced.2 header ∧
      bytes = Wire.line header ++ rest := by
  obtain ⟨header, behind, hline, hannounced⟩ := bind_eq_ok.mp h
  obtain ⟨_, hbytes⟩ := line_eq_ok hline
  refine ⟨header, ?_⟩
  cases kind with
  | nested =>
    obtain ⟨hshape, hnum, rfl⟩ := shapeOf_sound hannounced
    rw [hshape]
    exact ⟨rfl, .nested hnum, hbytes⟩
  | flat =>
    obtain ⟨hshape, hnum, rfl⟩ := shapeOf_sound hannounced
    rw [hshape]
    exact ⟨rfl, .flat hnum, hbytes⟩
  | any =>
    obtain ⟨hshape, hnum, rfl⟩ := shapeOf_sound hannounced
    rw [hshape]
    exact ⟨rfl, .any hnum, hbytes⟩
  | typed =>
    obtain ⟨⟨element, hshape⟩, hheader, rfl⟩ := typedShapeOf_sound hannounced
    exact ⟨congrArg ArrayShape.kind hshape, hheader, hbytes⟩
  | typedNonNull =>
    obtain ⟨⟨element, hshape⟩, hheader, rfl⟩ := typedShapeOf_sound hannounced
    exact ⟨congrArg ArrayShape.kind hshape, hheader, hbytes⟩

/-- The header of a shape is read by the kind of the shape. -/
theorem reads_arrayHeader {shape : ArrayShape} {n : Nat} {header : Bytes}
    (h : Header shape n header) :
    Reads (arrayHeader shape.kind) (Wire.line header) (shape, n) := by
  cases h with
  | nested hnum => exact (Reads.line hnum.newline_not_mem).bindPure (reads_shapeOf hnum _)
  | flat hnum => exact (Reads.line hnum.newline_not_mem).bindPure (reads_shapeOf hnum _)
  | any hnum => exact (Reads.line hnum.newline_not_mem).bindPure (reads_shapeOf hnum _)
  | @typed element nonNull n digits hsupported hnum =>
    have hline := newline_not_mem_tagged element hnum
    have htyped := reads_typedShapeOf hsupported hnum nonNull
    cases nonNull with
    | false => exact (Reads.line hline).bindPure htyped
    | true => exact (Reads.line hline).bindPure htyped

namespace Recognizes

variable {α : Type}

/-- A body that was announced, as it may stand in an entry. -/
theorem accepts_scalar {inside : Bool} {digits : Bytes} {flawed : Flawed} (hnum : Num size digits)
    (hbody : Body type size body) (hjudges : Judges type size body flawed)
    (hinside : inside = true → flawed.2 = none) :
    (Untagged inside type).Accepts (Wire.line digits ++ Wire.line body) := by
  refine ⟨_, .mk hnum hbody, ?_⟩
  intro leaf hleaf
  rw [List.mem_singleton] at hleaf
  subst hleaf
  exact ⟨hjudges.not_packetError, fun h => hjudges.flaw_eq_none_iff.mp (hinside h)⟩

/-- A scalar that is an entry. -/
theorem scalar (type : ScalarType) : Recognizes (Parse.scalar type) (Untagged false type) where
  sound h := by
    obtain ⟨size, behind, hcount, hscalar⟩ := bind_eq_ok.mp h
    obtain ⟨digits, hnum, rfl⟩ := count_sound hcount
    obtain ⟨body, hbody, rfl, hjudges⟩ := scalarBody_sound hscalar
    exact ⟨_, (List.append_assoc _ _ _).symm, accepts_scalar hnum hbody hjudges nofun⟩
  complete h := by
    obtain ⟨leaves, ⟨hnum, hbody⟩, haccepted⟩ := h
    obtain ⟨hpacket, _⟩ := haccepted _ List.mem_cons_self
    obtain ⟨flawed, hreads, _⟩ := reads_scalarBody hbody hpacket
    exact ⟨flawed, (reads_count hnum _).bind hreads⟩

/-- A scalar inside an array. -/
theorem unflawedScalar (type : ScalarType) :
    Recognizes (unflawed (Parse.scalar type)) (Untagged true type) where
  sound h := by
    obtain ⟨size, behind, hcount, hscalar⟩ := bind_eq_ok.mp (unflawed_eq_ok h)
    obtain ⟨digits, hnum, rfl⟩ := count_sound hcount
    obtain ⟨body, hbody, rfl, hjudges⟩ := scalarBody_sound hscalar
    exact ⟨_, (List.append_assoc _ _ _).symm, accepts_scalar hnum hbody hjudges fun _ => rfl⟩
  complete h := by
    obtain ⟨leaves, ⟨hnum, hbody⟩, haccepted⟩ := h
    obtain ⟨value, hreads⟩ := reads_flawless hbody (haccepted _ List.mem_cons_self)
    have hscalar : Reads (Parse.scalar type) _ (value, none) := (reads_count hnum _).bind hreads
    exact ⟨value, hscalar.bindPure (.pure value)⟩

/-- A row of strings of a language is taken turn by turn. -/
theorem repeatedGo {item : Nat → Parse α} {language : Language}
    (h : ∀ turn, Recognizes (item turn) language) (n turn : Nat) (found : List α) :
    Recognizes (Parse.repeated.go item n turn found) (language.Times n) := by
  induction n generalizing turn found with
  | zero =>
    constructor
    · intro bytes all rest hok
      cases hok
      exact ⟨[], rfl, [], .none, nofun⟩
    · rintro taken ⟨leaves, ⟨⟩, _⟩
      exact ⟨found.reverse, .pure _⟩
  | succ n ih =>
    constructor
    · intro bytes all rest hok
      obtain ⟨a, behind, hfirst, hrest⟩ := bind_eq_ok.mp hok
      obtain ⟨first, rfl, leaves, hleaves, haccepted⟩ := (h turn).sound hfirst
      obtain ⟨others, rfl, more, hmore, haccepts⟩ := (ih (turn + 1) (a :: found)).sound hrest
      refine ⟨first ++ others, (List.append_assoc _ _ _).symm, leaves ++ more,
        .more hleaves hmore, ?_⟩
      intro leaf hleaf
      rcases List.mem_append.mp hleaf with hleaf | hleaf
      · exact haccepted leaf hleaf
      · exact haccepts leaf hleaf
    · rintro taken ⟨leaves, hleaves, haccepted⟩
      cases hleaves with
      | more hfirst hothers =>
        have hsplit := List.forall_mem_append.mp haccepted
        obtain ⟨a, hreads⟩ := (h turn).complete ⟨_, hfirst, hsplit.1⟩
        obtain ⟨all, hall⟩ := (ih (turn + 1) (a :: found)).complete ⟨_, hothers, hsplit.2⟩
        exact ⟨all, hreads.bind hall⟩

/-- A row of strings of a language. -/
theorem repeated {item : Nat → Parse α} {language : Language}
    (h : ∀ turn, Recognizes (item turn) language) (n : Nat) :
    Recognizes (Parse.repeated item n) (language.Times n) := repeatedGo h n 0 []

/-- Changing the result changes nothing about the bytes. -/
theorem map {β : Type} {parser : Parse α} {language : Language} (f : α → β)
    (h : Recognizes parser language) : Recognizes (f <$> parser) language where
  sound hok := by
    obtain ⟨a, hparser, _⟩ := map_eq_ok.mp hok
    exact h.sound hparser
  complete haccepts := by
    obtain ⟨a, hreads⟩ := h.complete haccepts
    exact ⟨f a, hreads.map f⟩

/-- An item of an array without tags. -/
theorem anyItem : Recognizes Parse.anyItem Blob where
  sound h := by
    obtain ⟨size, behind, hcount, hrest⟩ := bind_eq_ok.mp h
    obtain ⟨body, after, hpayload, hpure⟩ := bind_eq_ok.mp hrest
    cases hpure
    obtain ⟨digits, hnum, rfl⟩ := count_sound hcount
    obtain ⟨rfl, rfl⟩ := payload_sound hpayload
    exact ⟨_, (List.append_assoc _ _ _).symm, [], .mk hnum, nofun⟩
  complete h := by
    obtain ⟨leaves, ⟨hnum⟩, _⟩ := h
    exact ⟨_, (reads_count hnum _).bind ((Reads.payload _).bindPure (.pure _))⟩

/-- A tagged item is an array or a scalar of its own kind of reader. -/
theorem tagged {inside : Bool} {array : ArrayKind → Language} {next : ItemType → Parse α}
    (hscalar : ∀ type, Recognizes (next (.scalar type)) (Untagged inside type))
    (harray : ∀ kind, Recognizes (next (.array kind)) (array kind)) :
    Recognizes (itemType >>= next) (Item array inside) where
  sound h := by
    obtain ⟨announced, behind, htag, hnext⟩ := bind_eq_ok.mp h
    have hbytes := itemType_eq_ok htag
    cases announced with
    | scalar type =>
      obtain ⟨taken, rfl, leaves, hleaves, haccepted⟩ := (hscalar type).sound hnext
      exact ⟨type.tag :: taken, hbytes, leaves, .scalar (.mk hleaves), haccepted⟩
    | array kind =>
      obtain ⟨taken, rfl, leaves, hleaves, haccepted⟩ := (harray kind).sound hnext
      exact ⟨kind.tag :: taken, hbytes, leaves, .array hleaves, haccepted⟩
  complete h := by
    obtain ⟨leaves, hitem, haccepted⟩ := h
    cases hitem with
    | scalar hscalars =>
      obtain ⟨hleaves⟩ := hscalars
      obtain ⟨a, hreads⟩ := (hscalar _).complete ⟨leaves, hleaves, haccepted⟩
      exact ⟨a, (Reads.itemType (.scalar _)).bind hreads⟩
    | array hleaves =>
      obtain ⟨a, hreads⟩ := (harray _).complete ⟨leaves, hleaves, haccepted⟩
      exact ⟨a, (Reads.itemType (.array _)).bind hreads⟩

/-- A parser that always fails takes nothing. -/
theorem fail (e : ProtocolError) : Recognizes (Parse.fail e : Parse α) fun _ _ => False where
  sound h := nomatch h
  complete h := by
    obtain ⟨_, hfalse, _⟩ := h
    exact hfalse.elim

/-- An item of a flat array is a scalar. -/
theorem flatItem (index : Nat) : Recognizes (Parse.flatItem index) (Scalar true) := by
  have hitem : Recognizes (Parse.flatItem index) (Item (fun _ _ _ => False) true) :=
    tagged unflawedScalar fun kind => fail _
  constructor
  · intro bytes value rest hok
    obtain ⟨taken, hbytes, leaves, hleaves, haccepted⟩ := hitem.sound hok
    cases hleaves with
    | scalar hscalar => exact ⟨taken, hbytes, leaves, hscalar, haccepted⟩
    | array harray => exact harray.elim
  · rintro taken ⟨leaves, hleaves, haccepted⟩
    exact hitem.complete ⟨leaves, .scalar hleaves, haccepted⟩

/-- An element of a typed array. -/
theorem typedElement (element : ScalarType) (nonNull : Bool) :
    Recognizes (Parse.typedElement element nonNull) (Element element nonNull) where
  sound h := by
    obtain ⟨size, behind, hsize, hrest⟩ := bind_eq_ok.mp h
    rcases elementSize_sound hsize with ⟨rfl, rfl⟩ | ⟨n, digits, rfl, hnum, hbytes⟩
    · dsimp only at hrest
      split at hrest
      · cases hrest
      · rename_i hnull
        cases hrest
        refine ⟨_, rfl, _, .null, ?_⟩
        simpa [Leaf.IsAccepted] using hnull
    · obtain ⟨body, hbody, rfl, hjudges⟩ := scalarBody_sound (unflawed_eq_ok hrest)
      obtain ⟨leaves, hleaves, haccepted⟩ := accepts_scalar hnum hbody hjudges fun _ => rfl
      rcases hbytes with rfl | rfl
      · exact ⟨_, (List.append_assoc _ _ _).symm, leaves, .bare hleaves, haccepted⟩
      · refine ⟨_, ?_, leaves, .tagged hleaves, haccepted⟩
        rw [List.cons_append, List.append_assoc]
  complete h := by
    obtain ⟨leaves, hleaves, haccepted⟩ := h
    cases hleaves with
    | null =>
      have hnull : nonNull = false := haccepted _ List.mem_cons_self
      subst hnull
      exact ⟨.null, (Reads.nullSize element).bindPure (.pure _)⟩
    | bare hbare =>
      obtain ⟨hnum, hbody⟩ := hbare
      obtain ⟨value, hreads⟩ := reads_flawless hbody (haccepted _ List.mem_cons_self)
      exact ⟨value, (reads_elementSize hnum element).bind (hreads.bindPure (.pure value))⟩
    | tagged htagged =>
      obtain ⟨hnum, hbody⟩ := htagged
      obtain ⟨value, hreads⟩ := reads_flawless hbody (haccepted _ List.mem_cons_self)
      exact ⟨value, (reads_taggedSize hnum element).bind (hreads.bindPure (.pure value))⟩

/-- An array, by induction on the levels of arrays that it has room for. -/
theorem array (room : Nat) (kind : ArrayKind) :
    Recognizes (Parse.array room kind) (Nested room kind) := by
  induction room generalizing kind with
  | zero => exact fail _
  | succ room ih =>
    have hitem (shape : ArrayShape) (index : Nat) : Recognizes (arrayItem room shape index)
        (Content (Item (Nested room) true) shape) := by
      cases shape with
      | nested => exact tagged unflawedScalar ih
      | flat => exact flatItem index
      | any => exact anyItem
      | typed element nonNull => exact typedElement element nonNull
    rw [array_succ]
    constructor
    · intro bytes value rest hok
      obtain ⟨announced, behind, hheader, hitems⟩ := bind_eq_ok.mp hok
      obtain ⟨header, hkind, hshape, rfl⟩ := arrayHeader_sound hheader
      have hrepeated := (repeated (hitem announced.1) announced.2).map (Value.array announced.1)
      obtain ⟨taken, rfl, leaves, hleaves, haccepted⟩ := hrepeated.sound hitems
      exact ⟨_, (List.append_assoc _ _ _).symm, leaves, .mk hkind hshape hleaves, haccepted⟩
    · rintro taken ⟨leaves, hmembers, haccepted⟩
      obtain @⟨shape, n, header, bytes, _, rfl, hheader, hitems⟩ := hmembers
      have hrepeated := (repeated (hitem shape) n).map (Value.array shape)
      obtain ⟨value, hreads⟩ := hrepeated.complete ⟨leaves, hitems, haccepted⟩
      exact ⟨value, (reads_arrayHeader hheader).bind hreads⟩

/-- An entry of a batch. -/
theorem entry : Recognizes Parse.entry (Item (Nested 128) false) := by
  refine tagged (fun type => ?_) fun kind => ?_
  · exact (scalar type).map fun flawed =>
      (⟨.scalar type, flawed.1, flawed.2.map Error.protocol⟩ : Entry)
  · exact (array maxDepth kind).map fun value => (⟨.array kind, value, none⟩ : Entry)

/-- A batch. -/
theorem batch : Recognizes Parse.batch Batch where
  sound h := by
    obtain ⟨n, behind, hheader, hentries⟩ := bind_eq_ok.mp h
    obtain ⟨digits, hnum, rfl⟩ := batchHeader_sound hheader
    obtain ⟨taken, rfl, leaves, hleaves, haccepted⟩ :=
      (repeated (fun _ => entry) n).sound hentries
    refine ⟨_, ?_, leaves, .mk hnum hleaves, haccepted⟩
    rw [List.cons_append, List.append_assoc]
  complete h := by
    obtain ⟨leaves, ⟨hnum, hentries⟩, haccepted⟩ := h
    obtain ⟨found, hreads⟩ := (repeated (fun _ => entry) _).complete ⟨leaves, hentries, haccepted⟩
    exact ⟨found, (reads_batchHeader hnum).bind hreads⟩

end Recognizes

end Parse

namespace Batch

/-- The decoder accepts exactly its grammar: some bytes start with a batch of a size, for the
decoder, just when so many of them are a batch of the grammar in which no packet error, no
flawed scalar inside an array, and no null of an array without nulls stands. -/
theorem decode_complete_iff (bytes : Bytes) (size : Nat) :
    (∃ found, decode bytes = .complete found size) ↔
      size ≤ bytes.length ∧ ∃ leaves, Grammar.Batch leaves (bytes.take size) ∧
        ∀ leaf ∈ leaves, leaf.IsAccepted := by
  constructor
  · rintro ⟨found, hdecode⟩
    obtain ⟨rest, hbatch, hsize⟩ := decode_eq_complete_iff.mp hdecode
    obtain ⟨taken, rfl, haccepts⟩ := Parse.Recognizes.batch.sound hbatch
    have hlength : size = taken.length := by simpa using hsize
    subst hlength
    rw [List.take_left]
    exact ⟨by simp, haccepts⟩
  · rintro ⟨hsize, haccepts⟩
    obtain ⟨found, hreads⟩ := Parse.Recognizes.batch.complete haccepts
    have hbatch := hreads (bytes.drop size)
    rw [List.take_append_drop] at hbatch
    refine ⟨found, decode_eq_complete_iff.mpr ⟨_, hbatch, ?_⟩⟩
    rw [List.length_drop]
    omega

/-- A batch with arrays of every kind and scalars of every type. Inside its arrays there are numbers
with and without signs and zeros in front, with points and exponents, and in words. -/
def assorted : Bytes :=
  Utf8.encode ("*10\n$2\n{}\n-1\nx\n.0\n\n!1\n3\n!5\nno!!!\n" ++
    "&6\n:1\n7\n:4\n+007\n;2\n-5\n%9\n-1.25e+03\n%8\nInfinity\n%2\n.5\n" ++
    "_3\n+1\na\n?1\n\n\n!1\n0\n" ++ "~2\n1\n:\n0\n\n" ++
    "@;3\n2\n+3\n\x00\n;1\n4\n" ++ "^%1\n3\nnAn\n")

/-- A batch with a number in an array that is too large by one. -/
def overflowing : Bytes := Utf8.encode "*1\n&1\n:20\n18446744073709551616\n"

/-- The decoder takes the assorted batch as a whole, so all of its numbers are lines of the grammar;
and it does not take the other one, in which therefore some leaf is not accepted. -/
theorem decode_complete_iff_assorted :
    (∃ leaves, Grammar.Batch leaves assorted ∧ ∀ leaf ∈ leaves, leaf.IsAccepted) ∧
      ∀ leaves, Grammar.Batch leaves overflowing → ∃ leaf ∈ leaves, ¬leaf.IsAccepted := by
  have htaken : (match decode assorted with
      | .complete _ size => some size
      | _ => none) = some assorted.length := by
    decide +kernel
  have hrefused : (match decode overflowing with
      | .complete _ size => some size
      | _ => none) = none := by
    decide +kernel
  constructor
  · split at htaken
    · rename_i found size hdecode
      cases htaken
      obtain ⟨-, haccepts⟩ := (decode_complete_iff assorted _).mp ⟨found, hdecode⟩
      rw [List.take_length] at haccepts
      exact haccepts
    · cases htaken
  · intro leaves hleaves
    by_contra hnone
    have haccepted : ∀ leaf ∈ leaves, leaf.IsAccepted := by simpa using hnone
    have htake : Grammar.Batch leaves (overflowing.take overflowing.length) := by
      rw [List.take_length]
      exact hleaves
    obtain ⟨found, hdecode⟩ := (decode_complete_iff overflowing _).mpr
      ⟨le_rfl, leaves, htake, haccepted⟩
    rw [hdecode] at hrefused
    cases hrefused

end Batch

end StoreClient

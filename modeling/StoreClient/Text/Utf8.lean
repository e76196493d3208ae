/-!
# Bytes and UTF-8 text

The wire carries bytes and some of them are text. A text has one sequence of
bytes. Reading goes two ways: the strict reading answers only for well-formed
UTF-8, and the lossy reading replaces each ill-formed piece by U+FFFD.
-/

namespace StoreClient

/-- A sequence of bytes, as it is sent or received. -/
abbrev Bytes := List UInt8

namespace Utf8

/-- The bytes of a text. -/
def encode (text : String) : Bytes := text.toByteArray.data.toList

/-- The text with exactly these bytes, if they are well-formed UTF-8. -/
def decode? (bytes : Bytes) : Option String := String.fromUTF8? bytes.toByteArray

/-- The character whose encoding starts the bytes. An encoding takes at most
four bytes, so no more of them are looked at. -/
def firstChar? (bytes : Bytes) : Option Char := (bytes.take 4).toByteArray.utf8DecodeChar? 0

/-- The byte lies in the closed range from `low` to `high`. -/
def within (low high byte : UInt8) : Bool := low ≤ byte && byte ≤ high

/-- Which second byte may follow a lead byte in well-formed UTF-8, and how many
bytes after that one the encoding still has. A byte that starts no longer
encoding has no answer. -/
def continuation? (lead : UInt8) : Option ((UInt8 → Bool) × Nat) :=
  if within 0xC2 0xDF lead then some (within 0x80 0xBF, 0)
  else if lead == 0xE0 then some (within 0xA0 0xBF, 1)
  else if lead == 0xED then some (within 0x80 0x9F, 1)
  else if within 0xE1 0xEF lead then some (within 0x80 0xBF, 1)
  else if lead == 0xF0 then some (within 0x90 0xBF, 2)
  else if within 0xF1 0xF3 lead then some (within 0x80 0xBF, 2)
  else if lead == 0xF4 then some (within 0x80 0x8F, 2)
  else none

/-- How many bytes after the lead byte belong to an ill-formed piece: as many as
start some well-formed encoding with it. -/
def malformedTail (lead : UInt8) (rest : Bytes) : Nat :=
  match continuation? lead, rest with
  | some (second, more), b :: after =>
    if second b then 1 + ((after.take more).takeWhile (within 0x80 0xBF)).length else 0
  | _, _ => 0

/-- The characters of the bytes, with U+FFFD for each ill-formed piece. -/
def lossyChars : Bytes → List Char
  | [] => []
  | b :: rest =>
    match firstChar? (b :: rest) with
    | some c => c :: lossyChars (rest.drop (c.utf8Size - 1))
    | none => '\uFFFD' :: lossyChars (rest.drop (malformedTail b rest))
  termination_by bytes => bytes.length
  decreasing_by all_goals rw [List.length_drop, List.length_cons]; omega

/-- The text of the bytes, with U+FFFD for each ill-formed piece. -/
def decodeLossy (bytes : Bytes) : String := String.ofList (lossyChars bytes)

end Utf8

end StoreClient

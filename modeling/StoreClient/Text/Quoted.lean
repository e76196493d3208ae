import StoreClient.Text.Printable

/-!
# Quoted text

How messages show a text or a character: between quotes, on one line, with
escapes for what cannot be shown as it is.
-/

namespace StoreClient.Text

/-- The escape of a character by its code point, such as `\u{301}`. -/
def codePointEscape (c : Char) : List Char :=
  "\\u\x7b".toList ++ Nat.toDigits 16 c.toNat ++ ['\x7d']

/-- A character as it stands between quotes of the kind `quote`. -/
def escape (quote c : Char) : List Char :=
  if c = '\x00' then ['\\', '0']
  else if c = '\t' then ['\\', 't']
  else if c = '\r' then ['\\', 'r']
  else if c = '\n' then ['\\', 'n']
  else if c = '\\' || c = quote then ['\\', c]
  else if isHidden c then codePointEscape c
  else [c]

/-- A text in double quotes. -/
def quoted (text : String) : String :=
  String.ofList ('"' :: text.toList.flatMap (escape '"') ++ ['"'])

/-- A character in single quotes. -/
def quotedChar (c : Char) : String :=
  String.ofList ('\'' :: escape '\'' c ++ ['\''])

/-- The character with the same number as the byte. -/
def charOfByte (byte : UInt8) : Char := Char.ofNat byte.toNat

end StoreClient.Text

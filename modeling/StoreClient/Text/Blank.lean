/-!
# Blanks and words

The characters with the property White_Space, and the words of a line.
-/

namespace StoreClient.Text

/-- The characters with the property White_Space. -/
def isBlank (c : Char) : Bool :=
  (9 ≤ c.toNat && c.toNat ≤ 13) || (0x2000 ≤ c.toNat && c.toNat ≤ 0x200A) ||
    [0x20, 0x85, 0xA0, 0x1680, 0x2028, 0x2029, 0x202F, 0x205F, 0x3000].contains c.toNat

/-- The words of a line: its longest pieces without a blank. -/
def words (line : String) : List String :=
  ((line.toList.splitOnP isBlank).filter (! ·.isEmpty)).map String.ofList

end StoreClient.Text

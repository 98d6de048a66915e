/-! # Tables of characters

A character property is given by its ranges of code points, in increasing order. Two small ones are
given here: white space, which divides words, and characters that may be shown as nothing.

* `isBlank`: white space. It holds the next-line character and the wide spaces, but neither the
  zero-width space nor the ASCII separators `\x1c` to `\x1f`.
* `ignorable`: most of these characters have no shape or are marks; the Hangul fillers are letters,
  and are blank all the same. -/

namespace BenchLedger.Text

/-- Ranges of code points, each with its first and its last member. -/
abbrev CharTable := List (Nat × Nat)

/-- The character lies in one of the ranges. -/
def CharTable.holds (table : CharTable) (c : Char) : Bool :=
  table.any fun range => range.1 ≤ c.toNat && c.toNat ≤ range.2

/-- The characters with the property `White_Space`. -/
def blanks : CharTable :=
  [(0x9, 0xD), (0x20, 0x20), (0x85, 0x85), (0xA0, 0xA0), (0x1680, 0x1680), (0x2000, 0x200A),
   (0x2028, 0x2029), (0x202F, 0x202F), (0x205F, 0x205F), (0x3000, 0x3000)]

/-- White space. -/
def isBlank (c : Char) : Bool := blanks.holds c

/-- A text with no white space in it, and not empty: it is read back as one word. -/
def IsWord (text : List Char) : Prop := text ≠ [] ∧ ∀ c ∈ text, isBlank c = false

instance (text : List Char) : Decidable (IsWord text) :=
  @instDecidableAnd _ _ inferInstance (List.decidableBAll _ text)

/-- The characters with the property `Default_Ignorable_Code_Point` in Unicode 17. -/
def ignorable : CharTable :=
  [(0xAD, 0xAD), (0x34F, 0x34F), (0x61C, 0x61C), (0x115F, 0x1160), (0x17B4, 0x17B5),
   (0x180B, 0x180F), (0x200B, 0x200F), (0x202A, 0x202E), (0x2060, 0x206F), (0x3164, 0x3164),
   (0xFE00, 0xFE0F), (0xFEFF, 0xFEFF), (0xFFA0, 0xFFA0), (0xFFF0, 0xFFF8), (0x1BCA0, 0x1BCA3),
   (0x1D173, 0x1D17A), (0xE0000, 0xE0FFF)]

end BenchLedger.Text

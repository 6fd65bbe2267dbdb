/-!
# White space

The characters with the Unicode property `White_Space`, and trimming by them.
Every blank of the core library is one of them (`isWhitespace_of_core`).
-/

namespace Asm65.Text

/-- The code points with the property `White_Space`, as closed ranges. -/
def whitespaceRanges : List (Nat × Nat) :=
  [(0x09, 0x0D), (0x20, 0x20), (0x85, 0x85), (0xA0, 0xA0), (0x1680, 0x1680),
    (0x2000, 0x200A), (0x2028, 0x2029), (0x202F, 0x202F), (0x205F, 0x205F), (0x3000, 0x3000)]

/-- Whether a character has the property `White_Space`. -/
def isWhitespace (c : Char) : Bool :=
  whitespaceRanges.any fun range => range.1 ≤ c.toNat && c.toNat ≤ range.2

theorem isWhitespace_of_core {c : Char} (h : c.isWhitespace) : isWhitespace c := by
  simp only [Char.isWhitespace, Bool.or_eq_true, decide_eq_true_eq] at h
  rcases h with ((rfl | rfl) | rfl) | rfl <;> decide

/-- A text without the white space at its two ends. -/
def trim (text : String) : String :=
  String.ofList
    (((text.toList.dropWhile isWhitespace).reverse.dropWhile isWhitespace).reverse)

end Asm65.Text

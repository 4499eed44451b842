import HttpForms.Text.Ranges

/-!
# Blanks and trimming

Trimming takes away every character of property White_Space at both ends of a text. It is wider than
the ASCII blanks: a no-break space goes as well.
-/

namespace HttpForms.Text

/-- Characters of property White_Space. -/
def blankRanges : List (Nat × Nat) := [
  (0x09, 0x0D), (0x20, 0x20), (0x85, 0x85), (0xA0, 0xA0), (0x1680, 0x1680), (0x2000, 0x200A),
  (0x2028, 0x2029), (0x202F, 0x202F), (0x205F, 0x205F), (0x3000, 0x3000)]

/-- Whether trimming takes the character away. -/
def isBlank (c : Char) : Bool :=
  inRanges blankRanges c.toNat

/-- The five blanks of the ASCII range that separate entries of a header value. -/
def isAsciiBlank (c : Char) : Bool :=
  c == ' ' || c == '\t' || c == '\n' || c == '\x0C' || c == '\r'

/-- A list of characters without the blanks at its ends. -/
def trimChars (cs : List Char) : List Char :=
  ((cs.dropWhile isBlank).reverse.dropWhile isBlank).reverse

/-- A text without the blanks at its ends. -/
def trim (s : String) : String :=
  String.ofList (trimChars s.toList)

theorem isBlank_of_isAsciiBlank {c : Char} (blank : isAsciiBlank c = true) : isBlank c = true := by
  simp only [isAsciiBlank, Bool.or_eq_true, beq_iff_eq] at blank
  rcases blank with (((rfl | rfl) | rfl) | rfl) | rfl <;> decide

example : trimChars "\u00A0 a b\u3000".toList = "a b".toList := by decide +kernel
example : trimChars "\u200Ba".toList = "\u200Ba".toList := by decide +kernel

end HttpForms.Text

import HttpForms.Text.Ranges
import HttpForms.Text.PrintTable

/-!
# Texts inside messages

A message shows the text it complains about between double quotes. Whatever a reader could not see
or could misread is written as an escape, so that two different texts never look the same.
-/

namespace HttpForms.Text

/-- A mark that would join the quote or character before it. -/
def isExtending (c : Char) : Bool :=
  inRanges PrintTable.extending c.toNat

/-- A character that shows a shape of its own; the space counts. -/
def isVisible (c : Char) : Bool :=
  c == ' ' || !inRanges PrintTable.invisible c.toNat

/-- The number of a character in lower-case hexadecimal, without leading zeros. -/
def hexNumber (c : Char) : List Char :=
  Nat.toDigits 16 c.toNat

/-- How one character stands between the quotes. -/
def quoteChar (c : Char) : List Char :=
  match c with
  | '\t' => ['\\', 't']
  | '\r' => ['\\', 'r']
  | '\n' => ['\\', 'n']
  | '\x00' => ['\\', '0']
  | '"' => ['\\', '"']
  | '\\' => ['\\', '\\']
  | c =>
    if isVisible c && !isExtending c then [c]
    else ['\\', 'u', '\x7b'] ++ hexNumber c ++ ['\x7d']

/-- A text between quotes, with everything unclear escaped. -/
def quoted (s : String) : String :=
  String.ofList ('"' :: s.toList.flatMap quoteChar ++ ['"'])

example : quoted "a\"\t'\u00A0" = "\"a\\\"\\t'\\u\x7ba0\x7d\"" := by decide +kernel
example : quoteChar '\u0301' = "\\u\x7b301\x7d".toList := by decide +kernel
example : quoteChar 'é' = ['é'] := by decide +kernel
example : quoteChar '\u3164' = "\\u\x7b3164\x7d".toList := by decide +kernel
example : quoteChar '\uFF9E' = ['\uFF9E'] := by decide +kernel

end HttpForms.Text

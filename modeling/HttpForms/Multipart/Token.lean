import HttpForms.Text.Percent

/-!
# Tokens

Names of parameters and types of dispositions are tokens: rows of printable ASCII characters without
blanks and without the separators of header values.
-/

namespace HttpForms.Multipart

/-- A character of a token. -/
def isTokenChar (c : Char) : Bool :=
  Percent.isAlphanumeric c || "!#$%&'*+-.^_\x60\x7b|\x7d~".toList.contains c

/-- A token has at least one character. -/
def isToken (cs : List Char) : Bool :=
  !cs.isEmpty && cs.all isTokenChar

example : isToken "form-data".toList = true := by decide +kernel
example : isToken "form data".toList = false := by decide +kernel
example : isToken [] = false := by decide +kernel

end HttpForms.Multipart

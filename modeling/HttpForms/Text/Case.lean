import HttpForms.Text.Ranges
import HttpForms.Text.CaseTable

/-!
# Lower-casing

Names that match without regard to case are compared by their full lower-casing: every character
goes to its lower-case partner, `İ` becomes two characters, and a capital sigma becomes `ς` at the
end of a word and `σ` elsewhere. It is no folding: `ß` and `SS` stay apart.
-/

namespace HttpForms.Text

/-- The partner of a character in one run of the table. -/
def runPartner (n : Nat) : Nat × Nat × Nat × Nat → Option Nat
  | (first, last, step, partner) =>
    if first ≤ n && n ≤ last && (n - first) % step == 0 then some (partner + (n - first)) else none

/-- The lower-case partner of one character, away from every rule about its neighbours. -/
def lowerChar (c : Char) : List Char :=
  if c.toNat < 0x80 then [if 'A' ≤ c && c ≤ 'Z' then Char.ofNat (c.toNat + 0x20) else c]
  else if c == 'İ' then ['i', '\u0307']
  else [((CaseTable.lowerRuns.findSome? (runPartner c.toNat)).map Char.ofNat).getD c]

/-- A letter that has a case. -/
def isCased (c : Char) : Bool :=
  inRanges CaseTable.cased c.toNat

/-- A character that word endings look past. -/
def isCaseIgnorable (c : Char) : Bool :=
  inRanges CaseTable.caseIgnorable c.toNat

/-- Whether the first character that is not looked past is a cased letter. -/
def meetsCased (cs : List Char) : Bool :=
  ((cs.dropWhile isCaseIgnorable).head?.map isCased).getD false

/-- Lower-cases what follows `before`, which is reversed: the letter nearest comes first. A sigma
ends its word when a cased letter stands before it and none after it. -/
def lowerAfter (before : List Char) : List Char → List Char
  | [] => []
  | c :: rest =>
    let lowered :=
      if c == 'Σ' then [if meetsCased before && !meetsCased rest then 'ς' else 'σ']
      else lowerChar c
    lowered ++ lowerAfter (c :: before) rest

/-- The lower-casing of a list of characters. -/
def lowerChars (cs : List Char) : List Char :=
  lowerAfter [] cs

/-- The lower-casing of a text. -/
def lower (s : String) : String :=
  String.ofList (lowerChars s.toList)

/-! ## ASCII letters alone

Header names, type names and labels ignore the case of the 26 ASCII letters and of nothing else. -/

/-- The lower-case partner of an ASCII capital; every other character is its own. -/
def asciiLowerChar (c : Char) : Char :=
  if 'A' ≤ c && c ≤ 'Z' then Char.ofNat (c.toNat + 0x20) else c

/-- Equal up to the case of ASCII letters. -/
def sameAscii (a b : String) : Bool :=
  a.toList.map asciiLowerChar == b.toList.map asciiLowerChar

example : lowerChars "ΟΔΟΣ Σ".toList = "οδος σ".toList := by decide +kernel
example : lowerChars "İß\u212A".toList = "i\u0307ßk".toList := by decide +kernel
example : sameAscii "Content-Type" "content-type" = true := by decide +kernel
example : sameAscii "é" "É" = false := by decide +kernel

end HttpForms.Text

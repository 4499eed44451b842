import HttpForms.Text.Utf8

/-!
# Percent-encoding

An octet that may not stand for itself is written `%XX` with upper-case hexadecimal digits. Reading
accepts digits of either case and leaves a `%` alone that two digits do not follow.

This stands for what the package `percent-encoding` does: `encode` for its writing of text as UTF-8
with a set of characters to be escaped, `decode` for its reading of octets.
-/

namespace HttpForms.Percent

/-- The upper-case hexadecimal digit of a number below sixteen. -/
def hexDigit (n : Nat) : Char :=
  Char.ofNat (if n < 10 then 0x30 + n else 0x37 + n)

/-- The value of a hexadecimal digit of either case. -/
def hexValue (b : UInt8) : Option Nat :=
  if 0x30 ≤ b && b ≤ 0x39 then some (b.toNat - 0x30)
  else if 0x41 ≤ b && b ≤ 0x46 then some (b.toNat - 0x37)
  else if 0x61 ≤ b && b ≤ 0x66 then some (b.toNat - 0x57)
  else none

/-- The triplet of an octet. -/
def triplet (b : UInt8) : List Char :=
  ['%', hexDigit (b.toNat / 16), hexDigit (b.toNat % 16)]

/-- The triplets of all octets of a character. -/
def encodeChar (c : Char) : List Char :=
  (String.utf8EncodeChar c).flatMap triplet

/-- Encodes every character that is not to be kept. -/
def encode (keep : Char → Bool) (cs : List Char) : List Char :=
  cs.flatMap fun c => if keep c then [c] else encodeChar c

/-- The octets that a percent-encoded sequence of octets stands for. -/
def decode : Bytes → Bytes
  | 0x25 :: high :: low :: rest =>
    match hexValue high, hexValue low with
    | some h, some l => UInt8.ofNat (16 * h + l) :: decode rest
    | _, _ => 0x25 :: decode (high :: low :: rest)
  | b :: rest => b :: decode rest
  | [] => []

/-- An ASCII letter or digit. -/
def isAlphanumeric (c : Char) : Bool :=
  ('0' ≤ c && c ≤ '9') || ('A' ≤ c && c ≤ 'Z') || ('a' ≤ c && c ≤ 'z')

example : encode isAlphanumeric "aé%".toList = "a%C3%A9%25".toList := by decide +kernel
example : decode (Utf8.encode "%4a%zz%") = Utf8.encode "J%zz%" := by decide +kernel

end HttpForms.Percent

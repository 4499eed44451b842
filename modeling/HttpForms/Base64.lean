import HttpForms.Bytes
import HttpForms.Decimal.Natural

/-!
# Base64

Four symbols of six bits stand for three octets. Reading is strict: only the standard alphabet, `=`
exactly where the last group needs it, and no bits left over that are not zero. So every sequence of
octets has one spelling. The first fault is reported with its place.

This stands for what the package `base64` does with its standard alphabet and padding.
-/

namespace HttpForms.Base64

/-- Why a text is not Base64. -/
inductive Fault
  /-- The octet at this place may not stand there. -/
  | symbol (place : Nat) (byte : UInt8)
  /-- The last group has too few symbols; the text ends at this place. -/
  | length (place : Nat)
  /-- The last symbol has bits that no octet takes. -/
  | lastSymbol (place : Nat) (byte : UInt8)
  /-- The last group is not filled up. -/
  | padding
  deriving DecidableEq, Repr

/-- The wording of a fault. -/
def Fault.message : Fault → String
  | .symbol place byte =>
    "Invalid symbol " ++ Decimal.text byte.toNat ++ ", offset " ++ Decimal.text place ++ "."
  | .length place => "Invalid input length: " ++ Decimal.text place
  | .lastSymbol place byte =>
    "Invalid last symbol " ++ Decimal.text byte.toNat ++ ", offset " ++ Decimal.text place ++ "."
  | .padding => "Invalid padding"

/-- What fills up the last group. -/
def pad : UInt8 := 0x3D

/-- The six bits of a symbol. -/
def symbolValue (b : UInt8) : Option Nat :=
  if 0x41 ≤ b && b ≤ 0x5A then some (b.toNat - 0x41)
  else if 0x61 ≤ b && b ≤ 0x7A then some (b.toNat - 0x61 + 26)
  else if 0x30 ≤ b && b ≤ 0x39 then some (b.toNat - 0x30 + 52)
  else if b == 0x2B then some 62
  else if b == 0x2F then some 63
  else none

/-- The six bits of every symbol, from a place on. -/
def symbolValues (place : Nat) : Bytes → Except Fault (List Nat)
  | [] => .ok []
  | b :: rest =>
    match symbolValue b with
    | some value => (symbolValues (place + 1) rest).map (value :: ·)
    | none => .error (.symbol place b)

/-- The octets of groups of four symbols; the last group may have two or three. -/
def octets : List Nat → Bytes
  | a :: b :: c :: d :: rest =>
    UInt8.ofNat (a * 4 + b / 16) :: UInt8.ofNat (b % 16 * 16 + c / 4) ::
      UInt8.ofNat (c % 4 * 64 + d) :: octets rest
  | [a, b, c] => [UInt8.ofNat (a * 4 + b / 16), UInt8.ofNat (b % 16 * 16 + c / 4)]
  | [a, b] => [UInt8.ofNat (a * 4 + b / 16)]
  | _ => []

/-- The bits of the last symbol that no octet takes. -/
def spare : List Nat → Nat
  | [_, b] => b % 16
  | [_, _, c] => c % 4
  | _ => 0

/-- Reads the last group, which begins at a place. -/
def decodeLast (place : Nat) (group : Bytes) : Except Fault Bytes :=
  let symbols := group.takeWhile (· != pad)
  let pads := group.dropWhile (· != pad)
  match symbolValues place symbols with
  | .error fault => .error fault
  | .ok values =>
    if !pads.isEmpty && (symbols.length < 2 || pads.any (· != pad)) then
      .error (.symbol (place + symbols.length) pad)
    else if group.isEmpty then .ok []
    else if symbols.length < 2 then .error (.length (place + symbols.length))
    else if symbols.length + pads.length != 4 then .error .padding
    else if spare values != 0 then
      .error (.lastSymbol (place + symbols.length - 1) (symbols.getLastD pad))
    else .ok (octets values)

/-- The one octet after full groups that is no symbol at all. Nothing can make such a text whole, so
it is reported before any other fault. -/
def strayEnd (text : Bytes) : Option UInt8 :=
  if text.length % 4 == 1 then
    text.getLast?.filter fun b => b != pad && (symbolValue b).isNone
  else none

/-- Reads a text without blanks. -/
def decode (text : Bytes) : Except Fault Bytes :=
  let full := (text.length - 1) / 4 * 4
  match strayEnd text with
  | some b => .error (.symbol (text.length - 1) b)
  | none =>
    match symbolValues 0 (text.take full) with
    | .error fault => .error fault
    | .ok values => (decodeLast full (text.drop full)).map (octets values ++ ·)

/-- Reads a text and passes over the ASCII blanks in it. -/
def decodeFolded (text : Bytes) : Except Fault Bytes :=
  decode (text.filter fun b => !Bytes.isAsciiBlank b)

example : decode [0x41, 0x41, 0x45, 0x43, 0x2F, 0x77, 0x3D, 0x3D] = .ok [0, 1, 2, 0xFF] := rfl
example : decode [0x41, 0x42, 0x3D, 0x3D] = .error (.lastSymbol 1 0x42) := rfl
example : decode [0x41, 0x3D] = .error (.symbol 1 0x3D) := rfl
example : decode [0x41, 0x41, 0x3D] = .error .padding := rfl

end HttpForms.Base64

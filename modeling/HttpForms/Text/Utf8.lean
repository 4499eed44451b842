import HttpForms.Bytes

/-!
# UTF-8

Text becomes octets by the standard encoding. Octets become text in two ways: strictly, where one
malformed sequence refuses the whole, and leniently, where every maximal malformed piece is replaced
by one U+FFFD. Both read the same decomposition into scalars and malformed pieces.
-/

namespace HttpForms.Utf8

/-- The octets of a list of characters. -/
def encodeChars (cs : List Char) : Bytes :=
  cs.flatMap String.utf8EncodeChar

/-- The octets of a text. -/
def encode (s : String) : Bytes :=
  encodeChars s.toList

/-! ## Reading one scalar -/

/-- An octet that continues a sequence. -/
def isTail (b : UInt8) : Bool :=
  0x80 ≤ b && b ≤ 0xBF

/-- How many octets follow a lead octet, if it can lead at all. -/
def tailCount (lead : UInt8) : Option Nat :=
  if lead < 0x80 then some 0
  else if lead < 0xC2 then none
  else if lead < 0xE0 then some 1
  else if lead < 0xF0 then some 2
  else if lead < 0xF5 then some 3
  else none

/-- The octets that may stand right after a lead octet. The narrowed ranges keep out overlong
spellings, surrogates and numbers past the last scalar. -/
def isSecond (lead second : UInt8) : Bool :=
  let low : UInt8 := if lead == 0xE0 then 0xA0 else if lead == 0xF0 then 0x90 else 0x80
  let high : UInt8 := if lead == 0xED then 0x9F else if lead == 0xF4 then 0x8F else 0xBF
  low ≤ second && second ≤ high

/-- Reads the last octets of a sequence, six bits each, or stops before the first that does not
belong to it. -/
def finish : Nat → Nat → Bytes → Option Char × Bytes
  | 0, scalar, rest => (some (Char.ofNat scalar), rest)
  | _ + 1, _, [] => (none, [])
  | missing + 1, scalar, b :: rest =>
    if isTail b then finish missing (scalar * 64 + b.toNat % 64) rest else (none, b :: rest)

/-- Reads the sequence that `lead` begins: its scalar, or `none` for a malformed piece, and what is
left. A malformed piece is as long as some valid sequence could have agreed with it, and at least
one octet. -/
def readScalar (lead : UInt8) (rest : Bytes) : Option Char × Bytes :=
  match tailCount lead, rest with
  | none, rest => (none, rest)
  | some 0, rest => (some (Char.ofNat lead.toNat), rest)
  | some (_ + 1), [] => (none, [])
  | some (missing + 1), second :: rest =>
    if isSecond lead second then
      finish missing (lead.toNat % Nat.pow 2 (5 - missing) * 64 + second.toNat % 64) rest
    else (none, second :: rest)

theorem finish_length_le (missing scalar : Nat) (bytes : Bytes) :
    (finish missing scalar bytes).2.length ≤ bytes.length := by
  induction bytes generalizing missing scalar with
  | nil => cases missing <;> simp [finish]
  | cons b rest ih =>
    cases missing with
    | zero => simp [finish]
    | succ missing =>
      rw [finish]
      split
      · exact Nat.le_succ_of_le (ih _ _)
      · exact Nat.le_refl _

theorem readScalar_length_le (lead : UInt8) (rest : Bytes) :
    (readScalar lead rest).2.length ≤ rest.length := by
  unfold readScalar
  split
  · exact Nat.le_refl _
  · exact Nat.le_refl _
  · exact Nat.le_refl _
  · split
    · exact Nat.le_succ_of_le (finish_length_le _ _ _)
    · exact Nat.le_refl _

/-! ## Reading all -/

/-- The scalars of a sequence of octets in order, with `none` for each malformed piece. -/
def scalars : Bytes → List (Option Char)
  | [] => []
  | lead :: rest => (readScalar lead rest).1 :: scalars (readScalar lead rest).2
termination_by bytes => bytes.length
decreasing_by exact Nat.lt_succ_of_le (readScalar_length_le _ _)

/-- What stands for a malformed piece. -/
def replacement : Char := '\uFFFD'

/-- Reads octets as text, with one U+FFFD for each malformed piece. -/
def decodeLossy (bytes : Bytes) : String :=
  String.ofList ((scalars bytes).map (·.getD replacement))

/-- Reads octets as text if all of them are well formed. -/
def decode? (bytes : Bytes) : Option String :=
  ((scalars bytes).mapM id).map String.ofList

example : decodeLossy [0x61, 0xF0, 0x9F, 0x98, 0x62] = "a\uFFFDb" := by decide +kernel
example : decode? [0xC3, 0xA9] = some "é" := by decide +kernel
example : decode? [0xED, 0xA0, 0x80] = none := by decide +kernel
example : (scalars [0xED, 0xA0, 0x80]).length = 3 := by decide +kernel

end HttpForms.Utf8

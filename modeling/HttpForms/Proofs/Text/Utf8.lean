import HttpForms.Text.Utf8

/-!
# Text survives UTF-8

Characters that are encoded are read back one by one, whatever follows them, and an ASCII octet in an
encoding is nothing but the ASCII character of that number.

Results:

1. `decodeLossy_encode`, `decode?_encode` — a text is read back, leniently and strictly;
2. `mem_encodeChars_ascii` — an ASCII octet stands for itself alone.
-/

namespace HttpForms.Utf8

variable {c : Char} {cs : List Char} {b : UInt8} {rest : Bytes}

/-! ## ASCII -/

theorem encodeChar_ascii (ascii : c.toNat < 0x80) :
    String.utf8EncodeChar c = [UInt8.ofNat c.toNat] := by
  have le : c.val.toNat ≤ 0x7F := Nat.le_of_lt_succ ascii
  simp only [String.utf8EncodeChar, le, if_true]
  rfl

/-- All octets of a character outside ASCII are outside ASCII themselves. -/
theorem not_ascii_of_mem_encodeChar (wide : 0x80 ≤ c.toNat)
    (here : b ∈ String.utf8EncodeChar c) : 0x80 ≤ b.toNat := by
  have gt : ¬ c.val.toNat ≤ 0x7F := Nat.not_le_of_lt wide
  unfold String.utf8EncodeChar at here
  simp only [gt, if_false] at here
  split at here
  · simp only [List.mem_cons, List.not_mem_nil, or_false] at here
    rcases here with rfl | rfl <;> simp only [UInt8.toNat_ofNat'] <;> omega
  split at here
  · simp only [List.mem_cons, List.not_mem_nil, or_false] at here
    rcases here with rfl | rfl | rfl <;> simp only [UInt8.toNat_ofNat'] <;> omega
  · simp only [List.mem_cons, List.not_mem_nil, or_false] at here
    rcases here with rfl | rfl | rfl | rfl <;> simp only [UInt8.toNat_ofNat'] <;> omega

theorem toNat_ofNat_of_isValidChar {n : Nat} (valid : n.isValidChar) : (Char.ofNat n).toNat = n := by
  unfold Char.ofNat
  rw [dif_pos valid]
  rfl

theorem toNat_ofNat_ascii {n : Nat} (ascii : n < 0x80) : (Char.ofNat n).toNat = n :=
  toNat_ofNat_of_isValidChar (.inl (by omega))

theorem mem_encodeChar_ascii (ascii : b.toNat < 0x80) :
    b ∈ String.utf8EncodeChar c ↔ c = Char.ofNat b.toNat := by
  by_cases narrow : c.toNat < 0x80
  · rw [encodeChar_ascii narrow, List.mem_singleton]
    constructor
    · rintro rfl
      have : (UInt8.ofNat c.toNat).toNat = c.toNat := by
        simp only [UInt8.toNat_ofNat']
        omega
      rw [this, Char.ofNat_toNat]
    · intro same
      rw [same, toNat_ofNat_ascii ascii, UInt8.ofNat_toNat]
  · constructor
    · intro here
      have := not_ascii_of_mem_encodeChar (Nat.le_of_not_lt narrow) here
      omega
    · intro same
      rw [same, toNat_ofNat_ascii ascii] at narrow
      exact absurd ascii narrow

/-- An ASCII octet stands for itself alone. -/
theorem mem_encodeChars_ascii (ascii : b.toNat < 0x80) :
    b ∈ encodeChars cs ↔ Char.ofNat b.toNat ∈ cs := by
  unfold encodeChars
  rw [List.mem_flatMap]
  constructor
  · rintro ⟨c, here, octet⟩
    rwa [← (mem_encodeChar_ascii ascii).1 octet]
  · intro here
    exact ⟨_, here, (mem_encodeChar_ascii ascii).2 rfl⟩

theorem encodeChars_nil : encodeChars [] = [] :=
  rfl

theorem encodeChars_cons (c : Char) (cs : List Char) :
    encodeChars (c :: cs) = String.utf8EncodeChar c ++ encodeChars cs :=
  List.flatMap_cons

theorem encodeChars_append (cs ds : List Char) :
    encodeChars (cs ++ ds) = encodeChars cs ++ encodeChars ds :=
  List.flatMap_append

theorem encode_append (s t : String) : encode (s ++ t) = encode s ++ encode t := by
  simp [encode, encodeChars_append]

/-! ## Reading back -/

theorem scalars_cons (lead : UInt8) (rest : Bytes) :
    scalars (lead :: rest) = (readScalar lead rest).1 :: scalars (readScalar lead rest).2 := by
  rw [scalars]

theorem toNat_tail (n : Nat) : (UInt8.ofNat (n % 64 + 0x80)).toNat = n % 64 + 0x80 := by
  rw [UInt8.toNat_ofNat']
  omega

theorem isTail_ofNat (n : Nat) : isTail (UInt8.ofNat (n % 64 + 0x80)) = true := by
  simp only [isTail, Bool.and_eq_true, decide_eq_true_eq, UInt8.le_iff_toNat_le, toNat_tail,
    UInt8.reduceToNat]
  omega

/-- The last octets of a sequence hand their six bits on. -/
theorem finish_tail (missing scalar n : Nat) :
    finish (missing + 1) scalar (UInt8.ofNat (n % 64 + 0x80) :: rest) =
      finish missing (scalar * 64 + n % 64) rest := by
  have bits : (UInt8.ofNat (n % 64 + 0x80)).toNat % 64 = n % 64 := by
    rw [toNat_tail]
    omega
  rw [finish, isTail_ofNat, if_pos rfl, bits]

theorem tailCount_ofNat {n : Nat} (octet : n < 256) :
    tailCount (UInt8.ofNat n) =
      if n < 0x80 then some 0 else if n < 0xC2 then none else if n < 0xE0 then some 1
      else if n < 0xF0 then some 2 else if n < 0xF5 then some 3 else none := by
  have number : (UInt8.ofNat n).toNat = n := by
    rw [UInt8.toNat_ofNat']
    omega
  simp only [tailCount, UInt8.lt_iff_toNat_lt, number, UInt8.reduceToNat]

/-- The ranges after four of the lead octets are narrower, and a scalar keeps to them. -/
theorem isSecond_ofNat {lead : UInt8} {n : Nat}
    (e0 : lead.toNat = 0xE0 → 0x20 ≤ n % 64) (f0 : lead.toNat = 0xF0 → 0x10 ≤ n % 64)
    (ed : lead.toNat = 0xED → n % 64 < 0x20) (f4 : lead.toNat = 0xF4 → n % 64 < 0x10) :
    isSecond lead (UInt8.ofNat (n % 64 + 0x80)) = true := by
  simp only [isSecond, beq_iff_eq, ← UInt8.toNat_inj, Bool.and_eq_true, decide_eq_true_eq,
    UInt8.le_iff_toNat_le, toNat_tail, UInt8.reduceToNat]
  constructor
  · split
    · simp only [UInt8.reduceToNat]
      have := e0 ‹_›
      omega
    split
    · simp only [UInt8.reduceToNat]
      have := f0 ‹_›
      omega
    · simp only [UInt8.reduceToNat]
      omega
  · split
    · simp only [UInt8.reduceToNat]
      have := ed ‹_›
      omega
    split
    · simp only [UInt8.reduceToNat]
      have := f4 ‹_›
      omega
    · simp only [UInt8.reduceToNat]
      omega

/-- A lead octet and the one behind it hand on the bits that they hold. -/
theorem readScalar_ofNat {n k m : Nat} (octet : n < 256)
    (count : tailCount (UInt8.ofNat n) = some (k + 1))
    (e0 : n = 0xE0 → 0x20 ≤ m % 64) (f0 : n = 0xF0 → 0x10 ≤ m % 64)
    (ed : n = 0xED → m % 64 < 0x20) (f4 : n = 0xF4 → m % 64 < 0x10) :
    readScalar (UInt8.ofNat n) (UInt8.ofNat (m % 64 + 0x80) :: rest) =
      finish k (n % Nat.pow 2 (5 - k) * 64 + m % 64) rest := by
  have number : (UInt8.ofNat n).toNat = n := by
    rw [UInt8.toNat_ofNat']
    omega
  have second : isSecond (UInt8.ofNat n) (UInt8.ofNat (m % 64 + 0x80)) = true := by
    apply isSecond_ofNat <;> rw [number] <;> assumption
  have bits : (m % 64 + 0x80) % 64 = m % 64 := by omega
  simp only [readScalar, count, second, if_true, number, toNat_tail, bits]

/-- A character is read back from the front, and what follows it is left alone. -/
theorem scalars_encodeChar (c : Char) (rest : Bytes) :
    scalars (String.utf8EncodeChar c ++ rest) = some c :: scalars rest := by
  have valid : c.toNat.isValidChar := c.valid
  have whole : Char.ofNat c.toNat = c := Char.ofNat_toNat c
  unfold String.utf8EncodeChar
  simp only [show c.val.toNat = c.toNat from rfl]
  generalize c.toNat = v at valid whole ⊢
  have bound : v < 0x110000 := by
    rcases valid with low | ⟨-, high⟩ <;> omega
  split
  · have number : (UInt8.ofNat v).toNat = v := by
      rw [UInt8.toNat_ofNat']
      omega
    have count := @tailCount_ofNat v (by omega)
    rw [if_pos (by omega)] at count
    rw [List.singleton_append, scalars_cons]
    simp only [readScalar, count, number, whole]
  split
  · have count := @tailCount_ofNat (v / 64 % 32 + 0xC0) (by omega)
    rw [if_neg (by omega), if_neg (by omega), if_pos (by omega)] at count
    have total : (v / 64 % 32 + 0xC0) % Nat.pow 2 5 * 64 + v % 64 = v := by
      show (v / 64 % 32 + 0xC0) % 32 * 64 + v % 64 = v
      omega
    rw [List.cons_append, List.singleton_append, scalars_cons,
      readScalar_ofNat (by omega) count (by omega) (by omega) (by omega) (by omega), finish, total,
      whole]
  split
  · have count := @tailCount_ofNat (v / 4096 % 16 + 0xE0) (by omega)
    rw [if_neg (by omega), if_neg (by omega), if_neg (by omega), if_pos (by omega)] at count
    have total : ((v / 4096 % 16 + 0xE0) % Nat.pow 2 4 * 64 + v / 64 % 64) * 64 + v % 64 = v := by
      show ((v / 4096 % 16 + 0xE0) % 16 * 64 + v / 64 % 64) * 64 + v % 64 = v
      omega
    -- The number is no surrogate, which is all that the range after `0xED` keeps out.
    have plane : v / 4096 % 16 + 0xE0 = 0xED → v / 64 % 64 < 0x20 := by
      rcases valid with low | ⟨high, -⟩ <;> omega
    rw [List.cons_append, List.cons_append, List.singleton_append, scalars_cons,
      readScalar_ofNat (by omega) count (by omega) (by omega) plane (by omega), finish_tail, finish,
      total, whole]
  · have count := @tailCount_ofNat (v / 262144 % 8 + 0xF0) (by omega)
    rw [if_neg (by omega), if_neg (by omega), if_neg (by omega), if_neg (by omega),
      if_pos (by omega)] at count
    have total : (((v / 262144 % 8 + 0xF0) % Nat.pow 2 3 * 64 + v / 4096 % 64) * 64 + v / 64 % 64) *
        64 + v % 64 = v := by
      show (((v / 262144 % 8 + 0xF0) % 8 * 64 + v / 4096 % 64) * 64 + v / 64 % 64) * 64 + v % 64 = v
      omega
    rw [List.cons_append, List.cons_append, List.cons_append, List.singleton_append, scalars_cons,
      readScalar_ofNat (by omega) count (by omega) (by omega) (by omega) (by omega), finish_tail,
      finish_tail, finish, total, whole]

theorem scalars_encodeChars (cs : List Char) : scalars (encodeChars cs) = cs.map some := by
  induction cs with
  | nil => simp [encodeChars, scalars]
  | cons c cs ih =>
    rw [encodeChars, List.flatMap_cons, scalars_encodeChar, List.map_cons]
    exact congrArg (some c :: ·) ih

/-- A text is read back leniently. -/
theorem decodeLossy_encode (s : String) : decodeLossy (encode s) = s := by
  rw [decodeLossy, encode, scalars_encodeChars, List.map_map]
  simp [Function.comp_def]

/-- A text is read back strictly. -/
theorem decode?_encode (s : String) : decode? (encode s) = some s := by
  have all (cs : List Char) : (cs.map some).mapM id = some cs := by
    induction cs with
    | nil => rfl
    | cons c cs ih => simp [ih]
  rw [decode?, encode, scalars_encodeChars, all]
  simp

end HttpForms.Utf8

import HttpForms.Proofs.Text.Utf8
import HttpForms.Text.Percent

/-!
# Percent-encoding is undone

Every octet that was encoded comes back from its triplet, and every character that was kept is an
ASCII letter or digit and stands for itself.

Results:

1. `decode_ascii`, `decode_encodeChar` — a character that stands for itself, and one that is encoded,
   come back whatever follows them;
2. `decode_encode` — decoding gives the octets of the text that was encoded.
-/

namespace HttpForms.Percent

variable {c : Char} {b : UInt8} {cs : List Char} {keep : Char → Bool} {rest : Bytes}

/-- A digit is one octet, and it has the value it stands for. -/
theorem hexDigit_octet : ∀ n : Fin 16, ∃ octet, String.utf8EncodeChar (hexDigit n) = [octet] ∧
    hexValue octet = some n.val := by
  intro n
  refine ⟨UInt8.ofNat (hexDigit n).toNat, ?_, ?_⟩
  · exact Utf8.encodeChar_ascii ((by decide : ∀ n : Fin 16, (hexDigit n).toNat < 0x80) n)
  · exact (by decide : ∀ n : Fin 16,
      hexValue (UInt8.ofNat (hexDigit n).toNat) = some n.val) n

/-- A triplet stands for its octet, whatever follows it. -/
theorem decode_triplet (b : UInt8) (rest : Bytes) :
    decode (Utf8.encodeChars (triplet b) ++ rest) = b :: decode rest := by
  have bound := b.toNat_lt
  obtain ⟨high, highEncoded, highValue⟩ := hexDigit_octet ⟨b.toNat / 16, by omega⟩
  obtain ⟨low, lowEncoded, lowValue⟩ := hexDigit_octet ⟨b.toNat % 16, by omega⟩
  have encoded : Utf8.encodeChars (triplet b) = [0x25, high, low] := by
    have percent : String.utf8EncodeChar '%' = [0x25] := by decide
    simp only [Utf8.encodeChars, triplet, List.flatMap_cons, List.flatMap_nil, percent, highEncoded,
      lowEncoded]
    rfl
  have whole : UInt8.ofNat (16 * (b.toNat / 16) + b.toNat % 16) = b := by
    rw [Nat.div_add_mod, UInt8.ofNat_toNat]
  rw [encoded]
  simp [decode, highValue, lowValue, whole]

theorem decode_triplets (bytes rest : Bytes) :
    decode (Utf8.encodeChars (bytes.flatMap triplet) ++ rest) = bytes ++ decode rest := by
  induction bytes with
  | nil => rfl
  | cons b bytes ih =>
    rw [List.flatMap_cons, Utf8.encodeChars_append, List.append_assoc, decode_triplet, ih]
    rfl

/-- A triplet is written with a percent sign and digits. -/
theorem mem_triplet (here : c ∈ triplet b) : c = '%' ∨ isAlphanumeric c = true := by
  have digit : ∀ n : Fin 16, isAlphanumeric (hexDigit n) = true := by decide
  have bound := b.toNat_lt
  simp only [triplet, List.mem_cons, List.not_mem_nil, or_false] at here
  rcases here with rfl | rfl | rfl
  · exact .inl rfl
  · exact .inr (digit ⟨b.toNat / 16, by omega⟩)
  · exact .inr (digit ⟨b.toNat % 16, by omega⟩)

theorem bounds_of_isAlphanumeric (letter : isAlphanumeric c = true) :
    0x30 ≤ c.toNat ∧ c.toNat ≤ 0x7A := by
  simp only [isAlphanumeric, Bool.or_eq_true, Bool.and_eq_true, decide_eq_true_eq,
    Char.le_def, UInt32.le_iff_toNat_le] at letter
  have number : c.val.toNat = c.toNat := rfl
  have ends : ('0'.val.toNat, '9'.val.toNat, 'A'.val.toNat, 'Z'.val.toNat, 'a'.val.toNat,
    'z'.val.toNat) = (0x30, 0x39, 0x41, 0x5A, 0x61, 0x7A) := by decide
  simp only [Prod.mk.injEq] at ends
  omega

theorem decode_cons (other : b ≠ 0x25) (rest : Bytes) : decode (b :: rest) = b :: decode rest := by
  rw [decode]
  exact fun _ _ _ same => absurd same other

/-- An ASCII character other than the percent sign stands for itself, whatever follows it. -/
theorem decode_ascii (ascii : c.toNat < 0x80) (other : c ≠ '%') (rest : Bytes) :
    decode (String.utf8EncodeChar c ++ rest) = String.utf8EncodeChar c ++ decode rest := by
  have notPercent : UInt8.ofNat c.toNat ≠ 0x25 := by
    intro same
    have number : (UInt8.ofNat c.toNat).toNat = 0x25 := by rw [same]; rfl
    rw [UInt8.toNat_ofNat'] at number
    have code : c.toNat = '%'.toNat := by
      show c.toNat = 0x25
      omega
    exact other (by rw [← Char.ofNat_toNat c, code, Char.ofNat_toNat])
  rw [Utf8.encodeChar_ascii ascii, List.singleton_append, decode_cons notPercent,
    List.singleton_append]

theorem decode_encodeChar (c : Char) (rest : Bytes) :
    decode (Utf8.encodeChars (encodeChar c) ++ rest) = String.utf8EncodeChar c ++ decode rest :=
  decode_triplets _ rest

/-- Decoding gives the octets of the text that was encoded. -/
theorem decode_encode (kept : ∀ c, keep c = true → isAlphanumeric c = true) (cs : List Char) :
    decode (Utf8.encodeChars (encode keep cs)) = Utf8.encodeChars cs := by
  induction cs with
  | nil => rfl
  | cons c cs ih =>
    rw [encode, List.flatMap_cons, Utf8.encodeChars_append, Utf8.encodeChars_cons]
    have onward : decode (Utf8.encodeChars (cs.flatMap fun c => if keep c then [c] else encodeChar c)) =
        Utf8.encodeChars cs := ih
    split
    · rename_i letter
      obtain ⟨low, high⟩ := bounds_of_isAlphanumeric (kept c letter)
      have notPercent : c ≠ '%' := by
        rintro rfl
        exact absurd (kept '%' letter) (by decide)
      rw [Utf8.encodeChars_cons, Utf8.encodeChars_nil, List.append_nil,
        decode_ascii (by omega) notPercent, onward]
    · rw [decode_encodeChar, onward]

end HttpForms.Percent

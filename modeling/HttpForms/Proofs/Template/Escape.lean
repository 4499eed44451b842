import HttpForms.Proofs.Text.Percent
import HttpForms.Template.Escape

/-!
# Escaped values are read back

Where no reserved characters are allowed, a value is written as one run of unreserved characters, plus
signs and triplets. Read as a form is read, with a space for every plus, it is the value again.

Results:

1. `mem_escape` — the characters of an escaped value;
2. `formDecode?_escape` — an escaped value is read back.
-/

namespace HttpForms.Template

/-- The character that a plus of a form stands for; every other one stands for itself. -/
def ofPlus (c : Char) : Char :=
  if c == '+' then ' ' else c

/-- Reads the text of a form: a plus is a space, and triplets are octets. -/
def formDecode? (cs : List Char) : Option String :=
  Utf8.decode? (Percent.decode (Utf8.encodeChars (cs.map ofPlus)))

variable {c d : Char} {cs : List Char} {value : String}

theorem isUnreserved_of_isAlphanumeric (letter : Percent.isAlphanumeric c = true) :
    isUnreserved c = true := by
  rw [isUnreserved, letter, Bool.true_or]

/-- An unreserved character is visible ASCII. -/
theorem bounds_of_isUnreserved (unreserved : isUnreserved c = true) :
    0x21 ≤ c.toNat ∧ c.toNat ≤ 0x7E := by
  rcases Bool.or_eq_true_iff.1 unreserved with letter | sign
  · have bounds := Percent.bounds_of_isAlphanumeric letter
    omega
  · have all : "-_.!*()~".toList.all
        (fun d => decide (0x21 ≤ d.toNat ∧ d.toNat ≤ 0x7E)) = true := by decide +kernel
    exact of_decide_eq_true (List.all_eq_true.1 all c (List.contains_iff_mem.1 sign))

theorem ne_of_isUnreserved (unreserved : isUnreserved c = true) (reserved : isUnreserved d = false) :
    c ≠ d := by
  rintro rfl
  exact Bool.noConfusion (unreserved.symm.trans reserved)

theorem toList_escape (value : String) :
    (escape false value).toList = value.toList.flatMap (escapeChar isUnreserved) := by
  simp [escape]

/-! ## The characters that are written -/

/-- Whatever characters are kept, escaping adds plus signs and triplets alone. -/
theorem mem_escapeChar_of_keep {keep : Char → Bool} (here : d ∈ escapeChar keep c) :
    keep d = true ∨ d = '+' ∨ d = '%' ∨ Percent.isAlphanumeric d = true := by
  unfold escapeChar at here
  split at here
  · exact .inr (.inl (List.mem_singleton.1 here))
  split at here
  · rename_i kept
    rw [List.mem_singleton.1 here]
    exact .inl kept
  · obtain ⟨b, -, inside⟩ := List.mem_flatMap.1 here
    exact .inr (.inr (Percent.mem_triplet inside))

theorem mem_escapeChar (here : d ∈ escapeChar isUnreserved c) :
    isUnreserved d = true ∨ d = '+' ∨ d = '%' := by
  rcases mem_escapeChar_of_keep here with kept | plus | percent | letter
  · exact .inl kept
  · exact .inr (.inl plus)
  · exact .inr (.inr percent)
  · exact .inl (isUnreserved_of_isAlphanumeric letter)

/-- Only unreserved characters, plus signs and percent signs are written. -/
theorem mem_escape (here : c ∈ (escape false value).toList) :
    isUnreserved c = true ∨ c = '+' ∨ c = '%' := by
  rw [toList_escape] at here
  obtain ⟨d, -, inside⟩ := List.mem_flatMap.1 here
  exact mem_escapeChar inside

theorem bounds_of_mem_escape (here : c ∈ (escape false value).toList) :
    0x21 ≤ c.toNat ∧ c.toNat ≤ 0x7E := by
  rcases mem_escape here with unreserved | rfl | rfl
  · exact bounds_of_isUnreserved unreserved
  · decide
  · decide

/-- A reserved character other than the two that escaping uses is never written. -/
theorem not_mem_escape (reserved : isUnreserved c = false) (plus : c ≠ '+') (percent : c ≠ '%') :
    c ∉ (escape false value).toList := by
  intro here
  rcases mem_escape here with unreserved | same | same
  · exact ne_of_isUnreserved unreserved reserved rfl
  · exact plus same
  · exact percent same

/-! ## Reading back -/

section Reading

-- A reading takes the plus for some plain character and every other character for itself.
variable {read : Char → Char}

/-- No character of a triplet is a plus. -/
theorem map_encodeChar (fixes : ∀ d, d ≠ '+' → read d = d) (c : Char) :
    (Percent.encodeChar c).map read = Percent.encodeChar c := by
  conv => rhs; rw [← List.map_id (Percent.encodeChar c)]
  refine List.map_congr_left fun d here => fixes d ?_
  obtain ⟨b, -, inside⟩ := List.mem_flatMap.1 here
  rcases Percent.mem_triplet inside with rfl | letter
  · decide
  · exact ne_of_isUnreserved (isUnreserved_of_isAlphanumeric letter) (by decide +kernel)

/-- What is written of a character is read as the character, or as what the plus is read as if it was
a space, whatever follows it. -/
theorem decode_escapeChar (fixes : ∀ d, d ≠ '+' → read d = d) (ascii : (read '+').toNat < 0x80)
    (plain : read '+' ≠ '%') (c : Char) (rest : Bytes) :
    Percent.decode (Utf8.encodeChars ((escapeChar isUnreserved c).map read) ++ rest) =
      String.utf8EncodeChar (if c == ' ' then read '+' else c) ++ Percent.decode rest := by
  unfold escapeChar
  split
  · rw [List.map_singleton, Utf8.encodeChars_cons, Utf8.encodeChars_nil, List.append_nil]
    exact Percent.decode_ascii ascii plain rest
  split
  · rename_i kept
    obtain ⟨low, high⟩ := bounds_of_isUnreserved kept
    have notPlus : c ≠ '+' := ne_of_isUnreserved kept (by decide +kernel)
    have notPercent : c ≠ '%' := ne_of_isUnreserved kept (by decide +kernel)
    rw [List.map_singleton, fixes c notPlus, Utf8.encodeChars_cons, Utf8.encodeChars_nil,
      List.append_nil]
    exact Percent.decode_ascii (by omega) notPercent rest
  · rw [map_encodeChar fixes, Percent.decode_encodeChar]

theorem decode_escape (read : Char → Char) (fixes : ∀ d, d ≠ '+' → read d = d)
    (ascii : (read '+').toNat < 0x80) (plain : read '+' ≠ '%') (value : String) :
    Percent.decode (Utf8.encodeChars ((escape false value).toList.map read)) =
      Utf8.encodeChars (value.toList.map fun c => if c == ' ' then read '+' else c) := by
  rw [toList_escape]
  induction value.toList with
  | nil => rfl
  | cons c cs ih =>
    rw [List.flatMap_cons, List.map_append, Utf8.encodeChars_append,
      decode_escapeChar fixes ascii plain, ih, List.map_cons, Utf8.encodeChars_cons]

end Reading

/-- An escaped value is read back. -/
theorem formDecode?_escape (value : String) :
    formDecode? (escape false value).toList = some value := by
  have fixes : ∀ d, d ≠ '+' → ofPlus d = d := fun d other => by simp [ofPlus, other]
  have same : (value.toList.map fun c => if c == ' ' then ofPlus '+' else c) = value.toList := by
    conv => rhs; rw [← List.map_id value.toList]
    refine List.map_congr_left fun c _ => ?_
    split
    · rename_i space
      exact (beq_iff_eq.1 space).symm
    · rfl
  rw [formDecode?, decode_escape ofPlus fixes (by decide) (by decide), same]
  exact Utf8.decode?_encode value

end HttpForms.Template

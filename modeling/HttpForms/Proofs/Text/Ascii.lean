import Mathlib.Tactic.Ring
import HttpForms.Charset
import HttpForms.Proofs.Text.Utf8

/-!
# ASCII in decoded text

Lines and headers are cut at octets and read as text afterwards. That is sound because no charset makes
an ASCII character of anything but its own octet: a sequence of several octets stands for a greater
number, and what is malformed becomes U+FFFD.

Results:

1. `Utf8.ascii_of_readScalar` — a scalar of ASCII is read from its own octet;
2. `Charset.mem_of_mem_decode` — so is every ASCII character of a decoded text, in every charset;
3. `Charset.decode_of_ascii` — on ASCII octets all charsets agree.
-/

namespace HttpForms

namespace Utf8

variable {c : Char} {b lead : UInt8} {bytes rest rest' : Bytes} {missing scalar : Nat}

/-! ## What is left behind a scalar -/

theorem finish_suffix (missing scalar : Nat) (bytes : Bytes) :
    (finish missing scalar bytes).2 <:+ bytes := by
  induction bytes generalizing missing scalar with
  | nil => cases missing <;> exact List.suffix_refl _
  | cons b bytes ih =>
    cases missing with
    | zero => exact List.suffix_refl _
    | succ missing =>
      rw [finish]
      split
      · exact (ih missing _).trans (List.suffix_cons b bytes)
      · exact List.suffix_refl _

theorem readScalar_suffix (lead : UInt8) (rest : Bytes) : (readScalar lead rest).2 <:+ rest := by
  unfold readScalar
  split
  · exact List.suffix_refl _
  · exact List.suffix_refl _
  · exact List.suffix_refl _
  · rename_i second rest _
    split
    · exact (finish_suffix _ _ rest).trans (List.suffix_cons second rest)
    · exact List.suffix_refl _

/-! ## The number of a scalar -/

/-- Every octet that is still missing adds six bits. -/
theorem finish_eq_some (read : finish missing scalar bytes = (some c, rest)) :
    ∃ n, c = Char.ofNat n ∧ scalar * 64 ^ missing ≤ n ∧ n < (scalar + 1) * 64 ^ missing := by
  induction missing generalizing scalar bytes with
  | zero =>
    rw [finish] at read
    obtain ⟨same, -⟩ := Prod.mk.inj read
    exact ⟨scalar, (Option.some.inj same).symm, by simp, by simp⟩
  | succ missing ih =>
    cases bytes with
    | nil => cases read
    | cons b bytes =>
      rw [finish] at read
      split at read
      · obtain ⟨n, same, low, high⟩ := ih read
        have bits : b.toNat % 64 < 64 := Nat.mod_lt _ (by decide)
        refine ⟨n, same, ?_, ?_⟩
        · calc scalar * 64 ^ (missing + 1)
              = scalar * 64 * 64 ^ missing := by ring
            _ ≤ (scalar * 64 + b.toNat % 64) * 64 ^ missing :=
                Nat.mul_le_mul_right _ (Nat.le_add_right _ _)
            _ ≤ n := low
        · calc n
              < (scalar * 64 + b.toNat % 64 + 1) * 64 ^ missing := high
            _ ≤ (scalar + 1) * 64 * 64 ^ missing := Nat.mul_le_mul_right _ (by omega)
            _ = (scalar + 1) * 64 ^ (missing + 1) := by ring
      · cases read

theorem tailCount_cases (count : tailCount lead = some (missing + 1)) :
    (missing = 0 ∧ 0xC2 ≤ lead.toNat ∧ lead.toNat < 0xE0) ∨
      (missing = 1 ∧ 0xE0 ≤ lead.toNat ∧ lead.toNat < 0xF0) ∨
      (missing = 2 ∧ 0xF0 ≤ lead.toNat ∧ lead.toNat < 0xF5) := by
  simp only [tailCount, UInt8.lt_iff_toNat_lt, UInt8.reduceToNat] at count
  split_ifs at count <;> simp only [Option.some.injEq, reduceCtorEq] at count <;> omega

theorem bounds_of_isSecond (second : isSecond lead b = true) :
    0x80 ≤ b.toNat ∧ b.toNat ≤ 0xBF ∧ (lead.toNat = 0xE0 → 0xA0 ≤ b.toNat) ∧
      (lead.toNat = 0xF0 → 0x90 ≤ b.toNat) ∧ (lead.toNat = 0xED → b.toNat ≤ 0x9F) ∧
      (lead.toNat = 0xF4 → b.toNat ≤ 0x8F) := by
  simp only [isSecond, beq_iff_eq, ← UInt8.toNat_inj, Bool.and_eq_true, decide_eq_true_eq,
    UInt8.le_iff_toNat_le, UInt8.reduceToNat] at second
  split_ifs at second <;> simp only [UInt8.reduceToNat] at second <;> omega

/-- A scalar of ASCII is read from its own octet. -/
theorem ascii_of_readScalar (read : readScalar lead rest = (some c, rest')) (ascii : c.toNat < 0x80) :
    c = Char.ofNat lead.toNat := by
  unfold readScalar at read
  split at read
  · cases read
  · obtain ⟨same, -⟩ := Prod.mk.inj read
    exact (Option.some.inj same).symm
  · cases read
  · rename_i missing second rest count
    split at read
    · rename_i follows
      obtain ⟨n, rfl, low, high⟩ := finish_eq_some read
      have bounds := bounds_of_isSecond follows
      -- The narrower ranges behind four of the lead octets keep the number a scalar and above ASCII.
      have wide : 0x80 ≤ n ∧ n.isValidChar := by
        unfold Nat.isValidChar
        rcases tailCount_cases count with ⟨rfl, range⟩ | ⟨rfl, range⟩ | ⟨rfl, range⟩
        · have mask : Nat.pow 2 (5 - 0) = 32 := by decide
          rw [mask] at low high
          omega
        · have mask : Nat.pow 2 (5 - 1) = 16 := by decide
          rw [mask] at low high
          omega
        · have mask : Nat.pow 2 (5 - 2) = 8 := by decide
          rw [mask] at low high
          omega
      rw [toNat_ofNat_of_isValidChar wide.2] at ascii
      omega
    · cases read

theorem mem_of_mem_scalars (here : some c ∈ scalars bytes) (ascii : c.toNat < 0x80) :
    ∃ b ∈ bytes, c = Char.ofNat b.toNat := by
  induction bytes using scalars.induct with
  | case1 => simp [scalars] at here
  | case2 lead rest ih =>
    rw [scalars_cons, List.mem_cons] at here
    rcases here with first | later
    · exact ⟨lead, List.mem_cons_self, ascii_of_readScalar (Prod.ext first.symm rfl) ascii⟩
    · obtain ⟨b, mem, same⟩ := ih later
      exact ⟨b, List.mem_cons_of_mem _ ((readScalar_suffix lead rest).subset mem), same⟩

theorem readScalar_of_ascii (ascii : lead.toNat < 0x80) (rest : Bytes) :
    readScalar lead rest = (some (Char.ofNat lead.toNat), rest) := by
  have count : tailCount lead = some 0 := if_pos (UInt8.lt_iff_toNat_lt.2 ascii)
  simp only [readScalar, count]

theorem scalars_of_ascii (ascii : ∀ b ∈ bytes, b.toNat < 0x80) :
    scalars bytes = bytes.map fun b => some (Char.ofNat b.toNat) := by
  induction bytes with
  | nil => rw [scalars, List.map_nil]
  | cons lead rest ih =>
    obtain ⟨first, others⟩ := List.forall_mem_cons.1 ascii
    rw [scalars_cons, readScalar_of_ascii first, ih others, List.map_cons]

end Utf8

namespace Charset

variable {charset : Charset} {c : Char} {bytes : Bytes}

theorem not_ascii_replacement : ¬ Utf8.replacement.toNat < 0x80 := by
  decide

/-- Every ASCII character of a decoded text was read from its own octet. -/
theorem mem_of_mem_decode (here : c ∈ (charset.decode bytes).toList) (ascii : c.toNat < 0x80) :
    UInt8.ofNat c.toNat ∈ bytes := by
  have own : ∀ b : UInt8, c = charOfByte b → UInt8.ofNat c.toNat = b := by
    rintro b rfl
    have valid : b.toNat.isValidChar := .inl (by have := b.toNat_lt; omega)
    rw [charOfByte, Utf8.toNat_ofNat_of_isValidChar valid, UInt8.ofNat_toNat]
  cases charset with
  | utf8 =>
    rw [decode, Utf8.decodeLossy, String.toList_ofList] at here
    obtain ⟨scalar, mem, same⟩ := List.mem_map.1 here
    cases scalar with
    | none =>
      rw [← same] at ascii
      exact absurd ascii not_ascii_replacement
    | some d =>
      obtain rfl : d = c := same
      obtain ⟨b, mem', octet⟩ := Utf8.mem_of_mem_scalars mem ascii
      rwa [own b octet]
  | latin1 =>
    rw [decode, String.toList_ofList] at here
    obtain ⟨b, mem, same⟩ := List.mem_map.1 here
    rwa [own b same.symm]
  | ascii =>
    rw [decode, String.toList_ofList] at here
    obtain ⟨b, mem, same⟩ := List.mem_map.1 here
    split at same
    · rwa [own b same.symm]
    · rw [← same] at ascii
      exact absurd ascii not_ascii_replacement

/-- On ASCII octets all charsets agree. -/
theorem decode_of_ascii (ascii : ∀ b ∈ bytes, b.toNat < 0x80) :
    charset.decode bytes = String.ofList (bytes.map charOfByte) := by
  cases charset with
  | utf8 =>
    rw [decode, Utf8.decodeLossy, Utf8.scalars_of_ascii ascii, List.map_map]
    rfl
  | latin1 => rfl
  | ascii =>
    rw [decode]
    refine congrArg String.ofList (List.map_congr_left fun b here => ?_)
    exact if_pos (UInt8.lt_iff_toNat_lt.2 (ascii b here))

end Charset

end HttpForms

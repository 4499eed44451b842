import HttpForms.Multipart.Disposition
import HttpForms.Proofs.Headers.Parameters
import HttpForms.Proofs.Text.Places

/-!
# A parameter list is read inside of its text

A parameter list is text, but it is read octet by octet, from place to place, and two stretches of the
text are cut out of it: the name and a value without quotes. Here it is read in just this way, and every
access is guarded: an octet is read only where one stands, a text is cut only between two of its
characters, and a turn has to move forward. A guard that does not hold leaves no answer at all.

Inside of quotes the place need not be between two characters: a backslash passes over one octet, which
may be the first of several of one character. No other octet of such a character is a quote or a
backslash, so the others are passed over one by one before anything can happen.

Results:

1. `unquote?_eq` — a quoted value ends between two characters, whatever its backslashes stand before;
2. `turn?_place` — from a boundary a turn passes its guards and comes to a later boundary;
3. `read?_inside` — no guard ever fails, and the list that is read is the parsed one;
4. `Disposition.read?_eq` — nor does one where a disposition is cut at its first semicolon.
-/

namespace HttpForms.Multipart

open Utf8 (encodeChars octet place Marks)

namespace ParameterList

/-! ## Reading from place to place -/

/-- An octet between two entries. -/
def isSeparatorOctet (b : UInt8) : Bool :=
  b == octet ';' || Bytes.isAsciiBlank b

/-- Passes over octets of a kind. -/
def skip? (kind : UInt8 → Bool) (bytes : Bytes) (pos : Nat) : Option Nat :=
  if pos < bytes.length then
    bytes[pos]?.bind fun b => if kind b then skip? kind bytes (pos + 1) else some pos
  else some pos
termination_by bytes.length - pos

/-- The place of the first mark in the stretch from `pos` to `last`. -/
def seek? (mark : UInt8) (bytes : Bytes) (pos last : Nat) : Option (Option Nat) :=
  (bytes.slice? pos last).map fun stretch => (stretch.findIdx? (· == mark)).map (pos + ·)

/-- Reads octets up to the closing quote, behind those in `value`. A backslash is left out and the octet
behind it is taken as it is. -/
def unquote? (bytes : Bytes) (pos : Nat) (value : Bytes) : Option (Bytes × Nat) :=
  if pos < bytes.length then
    bytes[pos]?.bind fun b =>
      if b == octet '\\' && pos + 1 < bytes.length then
        bytes[pos + 1]?.bind fun escaped => unquote? bytes (pos + 2) (value ++ [escaped])
      else if b == octet '"' then some (value, pos + 1)
      else unquote? bytes (pos + 1) (value ++ [b])
  else some (value, pos)
termination_by bytes.length - pos

/-- Reads the value after an equals sign. -/
def readValue? (cs : List Char) (pos : Nat) : Option (String × Nat) :=
  let bytes := encodeChars cs
  (skip? (· == octet ' ') bytes pos).bind fun pos =>
    (if pos < bytes.length then bytes[pos]?.map (· == octet '"') else some false).bind fun quoted =>
      if quoted then
        (unquote? bytes (pos + 1) []).map fun (value, next) => (Utf8.decodeLossy value, next)
      else
        (seek? (octet ';') bytes pos bytes.length).bind fun found =>
          let last := found.getD bytes.length
          (Utf8.slice? cs pos last).map fun value => (String.ofList (Text.trimChars value), last)

/-- Reads the entry at a place: a parameter, unless it has to be skipped, and the place behind it. -/
def readEntry? (cs : List Char) (pos : Nat) : Option (Option (String × String) × Nat) :=
  let bytes := encodeChars cs
  (seek? (octet ';') bytes pos bytes.length).bind fun found =>
    let last := found.getD bytes.length
    (seek? (octet '=') bytes pos last).bind fun
    | none => some (none, last)
    | some mark =>
      (Utf8.slice? cs pos mark).bind fun name =>
        let name := Text.trimChars name
        if isToken name then
          (readValue? cs (mark + 1)).map fun (value, next) =>
            (some (String.ofList name, value), next)
        else some (none, last)

/-- One turn: passes over what stands between two entries, and reads an entry if there is one. -/
def turn? (cs : List Char) (pos : Nat) : Option (Option (String × String) × Nat) :=
  (skip? isSeparatorOctet (encodeChars cs) pos).bind fun pos =>
    if (encodeChars cs).length ≤ pos then some (none, pos) else readEntry? cs pos

/-- Reads all entries from a place on. A turn that does not move forward is refused. -/
def readFrom? (cs : List Char) (pos : Nat) : Option (List (String × String)) :=
  if pos < (encodeChars cs).length then
    match turn? cs pos with
    | none => none
    | some (entry, next) =>
      if pos < next then (readFrom? cs next).map (entry.toList ++ ·) else none
  else some []
termination_by (encodeChars cs).length - pos

/-- Reads a parameter list. -/
def read? (cs : List Char) : Option (List (String × String)) :=
  readFrom? cs 0

/-! ## Octets of a kind -/

section KindLemmas

variable {p : UInt8 → Bool} {q : Char → Bool} {c d : Char} {cs back : List Char}
  {bytes front rest : Bytes} {pos : Nat}

theorem marks_blank : Marks Bytes.isAsciiBlank Text.isAsciiBlank :=
  .or (.or (.or (.or (.octet ' ' (by decide)) (.octet '\t' (by decide))) (.octet '\n' (by decide)))
    (.octet '\x0C' (by decide))) (.octet '\r' (by decide))

theorem marks_separator : Marks isSeparatorOctet isSeparator :=
  .or (.octet ';' (by decide)) marks_blank

/-- Passing over octets comes to the first character of another kind. -/
theorem skip?_place (marks : Marks p q) (ends : back <:+ cs) :
    skip? p (encodeChars cs) (place cs back) = some (place cs (back.dropWhile q)) := by
  induction back with
  | nil =>
    rw [skip?, Utf8.place_nil, if_neg (Nat.lt_irrefl _)]
    rfl
  | cons c back ih =>
    have later := (List.suffix_cons c back).trans ends
    obtain ⟨lead, tail, octets, read⟩ := Utf8.getElem?_place ends
    have kind : p lead = q c := marks.same c lead (by rw [octets]; exact List.mem_cons_self)
    rw [skip?, if_pos (List.getElem?_eq_some_iff.1 read).1, read, Option.bind_some, kind,
      List.dropWhile_cons]
    cases is : q c with
    | true => exact Utf8.place_succ (marks.ascii c is) ends ▸ ih later
    | false => rfl

/-- The first mark of a stretch is the first character that it stands for. -/
theorem seek?_place (ascii : d.toNat < 0x80) (mid back : List Char) (ends : mid ++ back <:+ cs) :
    seek? (octet d) (encodeChars cs) (place cs (mid ++ back)) (place cs back) =
      some (if d ∈ mid then some (place cs (mid.dropWhile (· != d) ++ back)) else none) := by
  have there : mid.any (· == d) = true ↔ d ∈ mid := by simp
  rw [seek?, Utf8.octets_place ends, Option.map_some, (Marks.octet d ascii).findIdx?]
  by_cases here : d ∈ mid
  · rw [if_pos here, if_pos (there.2 here), Option.map_some]
    have whole : mid.takeWhile (· != d) ++ (mid.dropWhile (· != d) ++ back) = mid ++ back := by
      rw [← List.append_assoc, List.takeWhile_append_dropWhile]
    have skip := @Utf8.place_skip cs (mid.takeWhile (· != d)) (mid.dropWhile (· != d) ++ back)
      (by rwa [whole])
    rw [skip, whole]
    rfl
  · rw [if_neg here, if_neg (mt there.1 here)]
    rfl

/-- What is sought up to the end of the text is found at the next mark or at the end. -/
theorem seekEnd?_place (ascii : d.toNat < 0x80) (ends : back <:+ cs) :
    ∃ found, seek? (octet d) (encodeChars cs) (place cs back) (encodeChars cs).length = some found ∧
      found.getD (encodeChars cs).length = place cs (back.dropWhile (· != d)) := by
  have whole : back ++ [] <:+ cs := by rwa [List.append_nil]
  have sought := seek?_place ascii back [] whole
  rw [List.append_nil, List.append_nil, Utf8.place_nil] at sought
  refine ⟨_, sought, ?_⟩
  split
  · rfl
  · rename_i free
    rw [List.dropWhile_eq_nil_iff.2, Utf8.place_nil]
    · rfl
    · exact fun c here => bne_iff_ne.2 fun same => free (same ▸ here)

/-! ## Quoted values -/

theorem unquote?_octet {b : UInt8} (read : bytes[pos]? = some b) (plain : b ≠ octet '\\' ∧ b ≠ octet '"')
    (value : Bytes) : unquote? bytes pos value = unquote? bytes (pos + 1) (value ++ [b]) := by
  rw [unquote?, if_pos (List.getElem?_eq_some_iff.1 read).1, read, Option.bind_some]
  simp [plain]

/-- Octets that are no quotes and no backslashes are passed over one by one. -/
theorem unquote?_plain (here : bytes.drop pos = front ++ rest)
    (plain : ∀ b ∈ front, b ≠ octet '\\' ∧ b ≠ octet '"') (value : Bytes) :
    unquote? bytes pos value = unquote? bytes (pos + front.length) (value ++ front) := by
  induction front generalizing pos value with
  | nil => simp
  | cons b front ih =>
    obtain ⟨first, others⟩ := List.forall_mem_cons.1 plain
    have read : bytes[pos]? = some b := by
      rw [← Nat.add_zero pos, ← List.getElem?_drop, here]
      rfl
    have behind : bytes.drop (pos + 1) = front ++ rest := by
      rw [← List.drop_drop, here]
      rfl
    rw [unquote?_octet read first, ih behind others, List.append_assoc, Nat.add_assoc,
      Nat.add_comm 1]
    rfl

/-- No octet outside of ASCII is a quote or a backslash. -/
theorem plain_of_not_ascii {b : UInt8} (wide : 0x80 ≤ b.toNat) :
    b ≠ octet '\\' ∧ b ≠ octet '"' := by
  constructor <;> (rintro rfl; revert wide; decide)

/-- A character that is no quote and no backslash is passed over whole. -/
theorem unquote?_char (ends : c :: back <:+ cs) (plain : c ≠ '\\' ∧ c ≠ '"') (value : Bytes) :
    unquote? (encodeChars cs) (place cs (c :: back)) value =
      unquote? (encodeChars cs) (place cs back) (value ++ String.utf8EncodeChar c) := by
  have others : ∀ b ∈ String.utf8EncodeChar c, b ≠ octet '\\' ∧ b ≠ octet '"' := fun b here =>
    ⟨Utf8.ne_octet (by decide) plain.1 here, Utf8.ne_octet (by decide) plain.2 here⟩
  rw [unquote?_plain ((Utf8.drop_place ends).trans (Utf8.encodeChars_cons c back)) others,
    Utf8.place_cons ends]

/-- A backslash takes the first octet behind it as it is, and nothing can happen before the character
that this octet begins has been passed over. -/
theorem unquote?_escape (ends : '\\' :: c :: back <:+ cs) (value : Bytes) :
    unquote? (encodeChars cs) (place cs ('\\' :: c :: back)) value =
      unquote? (encodeChars cs) (place cs back) (value ++ String.utf8EncodeChar c) := by
  have behind := (List.suffix_cons '\\' (c :: back)).trans ends
  have read := Utf8.getElem?_place_ascii (by decide) ends
  have next := Utf8.place_succ (by decide) ends
  obtain ⟨lead, tail, octets, escaped⟩ := Utf8.getElem?_place behind
  have width := Utf8.place_cons behind
  have whole := Utf8.drop_place behind
  rw [next] at escaped width whole
  rw [octets, List.length_cons] at width
  rw [Utf8.encodeChars_cons, octets] at whole
  have rest : (encodeChars cs).drop (place cs ('\\' :: c :: back) + 2) = tail ++ encodeChars back := by
    show (encodeChars cs).drop (place cs ('\\' :: c :: back) + 1 + 1) = _
    rw [← List.drop_drop, whole]
    rfl
  have inside := (List.getElem?_eq_some_iff.1 escaped).1
  rw [unquote?, if_pos (Nat.lt_of_succ_lt inside), read, Option.bind_some, if_pos (by simp [inside]),
    escaped, Option.bind_some,
    unquote?_plain rest fun b here => plain_of_not_ascii (Utf8.tail_not_ascii octets here), octets,
    List.append_assoc, List.singleton_append, width]
  congr 1
  omega

/-- A quoted value ends between two characters. -/
theorem unquote?_eq (ends : back <:+ cs) (value : Bytes) :
    unquote? (encodeChars cs) (place cs back) value =
      some (value ++ encodeChars (unquote back).1, place cs (unquote back).2) := by
  fun_induction unquote back generalizing value with
  | case1 =>
    rw [unquote?, Utf8.place_nil, if_neg (Nat.lt_irrefl _), Utf8.encodeChars_nil, List.append_nil]
  | case2 rest =>
    have read := Utf8.getElem?_place_ascii (by decide) ends
    rw [unquote?, if_pos (List.getElem?_eq_some_iff.1 read).1, read, Option.bind_some,
      if_neg fun both => absurd (Bool.and_eq_true_iff.1 both).1 (by decide),
      if_pos (beq_self_eq_true _), Utf8.place_succ (by decide) ends, Utf8.encodeChars_nil,
      List.append_nil]
  | case3 =>
    have read := Utf8.getElem?_place_ascii (by decide) ends
    have last := Utf8.place_succ (by decide) ends
    rw [Utf8.place_nil] at last
    rw [unquote?, if_pos (List.getElem?_eq_some_iff.1 read).1, read, Option.bind_some,
      if_neg (by simp [last]), if_neg (by decide), unquote?, if_neg (by simp [last]), ← last]
    rfl
  | case4 c rest ih =>
    have later := ((List.suffix_cons c rest).trans (List.suffix_cons '\\' _)).trans ends
    rw [unquote?_escape ends, ih later, Utf8.encodeChars_cons, List.append_assoc]
  | case5 c rest quote last escape ih =>
    have later := (List.suffix_cons c rest).trans ends
    have noEscape : c ≠ '\\' := fun same => by
      cases rest with
      | nil => exact last same rfl
      | cons d rest => exact escape d rest same rfl
    rw [unquote?_char ends ⟨noEscape, quote⟩, ih later, Utf8.encodeChars_cons, List.append_assoc]

end KindLemmas

/-! ## Entries and turns -/

/-- What is read in one turn, and what is left behind it. -/
def nextEntry (cs : List Char) : Option (String × String) × List Char :=
  match cs.dropWhile isSeparator with
  | [] => (none, [])
  | c :: rest => readEntry (c :: rest)

section TurnLemmas

variable {c : Char} {cs back : List Char}

theorem unquote_suffix (cs : List Char) : (unquote cs).2 <:+ cs := by
  fun_induction unquote cs with
  | case1 => exact List.suffix_refl _
  | case2 rest => exact List.suffix_cons _ rest
  | case3 => exact List.suffix_cons _ []
  | case4 c rest ih => exact (ih.trans (List.suffix_cons c rest)).trans (List.suffix_cons _ _)
  | case5 c rest _ _ _ ih => exact ih.trans (List.suffix_cons c rest)

theorem readValue_suffix (cs : List Char) : (readValue cs).2 <:+ cs := by
  have spaces := List.dropWhile_suffix (l := cs) (· == ' ')
  unfold readValue
  split
  · rename_i quoted found
    rw [found] at spaces
    exact ((unquote_suffix quoted).trans (List.suffix_cons _ quoted)).trans spaces
  · exact (List.dropWhile_suffix _).trans spaces

theorem readEntry_suffix (cs : List Char) : (readEntry cs).2 <:+ cs := by
  have skipped := List.dropWhile_suffix (l := cs) (· != ';')
  unfold readEntry
  simp only
  split
  · split
    · exact ((readValue_suffix _).trans (List.tail_suffix _)).trans (List.dropWhile_suffix _)
    · exact skipped
  · exact skipped

theorem readValue?_place (ends : back <:+ cs) :
    readValue? cs (place cs back) =
      some (String.ofList (readValue back).1, place cs (readValue back).2) := by
  have later := (List.dropWhile_suffix (· == ' ')).trans ends
  unfold readValue? readValue
  simp only [skip?_place (Marks.octet ' ' (by decide)) ends, Option.bind_some]
  generalize back.dropWhile (· == ' ') = plain at later ⊢
  obtain ⟨found, sought, last⟩ := seekEnd?_place (d := ';') (by decide) later
  have cut := @Utf8.slice?_place cs (plain.takeWhile (· != ';')) (plain.dropWhile (· != ';'))
    (by rwa [List.takeWhile_append_dropWhile])
  rw [List.takeWhile_append_dropWhile] at cut
  cases plain with
  | nil =>
    rw [if_neg (show ¬ place cs [] < (encodeChars cs).length from Nat.lt_irrefl _), Option.bind_some,
      if_neg Bool.false_ne_true, sought, Option.bind_some, last, cut]
    rfl
  | cons c rest =>
    obtain ⟨lead, tail, octets, read⟩ := Utf8.getElem?_place later
    have quoted : (lead == octet '"') = (c == '"') :=
      (Marks.octet '"' (by decide)).same c lead (by rw [octets]; exact List.mem_cons_self)
    rw [if_pos (List.getElem?_eq_some_iff.1 read).1, read, Option.map_some, Option.bind_some, quoted]
    by_cases is : c = '"'
    · subst is
      have behind := (List.suffix_cons '"' rest).trans later
      rw [if_pos (beq_self_eq_true _), ← Utf8.place_succ (by decide) later, unquote?_eq behind,
        List.nil_append]
      simp only [Option.map_some]
      have whole := Utf8.decodeLossy_encode (String.ofList (unquote rest).1)
      rw [Utf8.encode, String.toList_ofList] at whole
      rw [whole]
    · rw [if_neg (by simpa using is), sought, Option.bind_some, last, cut, Option.map_some]
      split
      · rename_i same
        exact absurd (List.cons.inj same).1 is
      · rfl

theorem readEntry?_place (ends : back <:+ cs) :
    readEntry? cs (place cs back) = some ((readEntry back).1, place cs (readEntry back).2) := by
  obtain ⟨found, sought, last⟩ := seekEnd?_place (d := ';') (by decide) ends
  have whole : back.takeWhile (· != ';') ++ back.dropWhile (· != ';') = back :=
    List.takeWhile_append_dropWhile
  unfold readEntry? readEntry
  simp only [sought, Option.bind_some, last]
  generalize back.takeWhile (· != ';') = entry at whole ⊢
  generalize back.dropWhile (· != ';') = rest at whole ⊢
  subst whole
  rw [seek?_place (by decide) entry rest ends, Option.bind_some]
  by_cases mark : '=' ∈ entry
  · obtain ⟨name, more, rfl, free⟩ := List.eq_append_cons_of_mem mark
    have noMark : ∀ c ∈ name, (c != '=') = true := fun c here =>
      bne_iff_ne.2 fun same => free (same ▸ here)
    have behind : ∀ rest, (name ++ '=' :: rest).dropWhile (· != '=') = '=' :: rest := fun rest => by
      rw [List.dropWhile_append_of_pos noMark]
      rfl
    have before : ∀ rest, (name ++ '=' :: rest).takeWhile (· != '=') = name := fun rest => by
      rw [List.takeWhile_append_of_pos noMark]
      exact List.append_nil name
    rw [List.append_assoc, List.cons_append] at ends ⊢
    have later := (List.suffix_append name _).trans ends
    rw [if_pos mark, if_pos (List.contains_iff_mem.2 mark), behind, behind, before, List.cons_append]
    simp only [List.tail_cons]
    rw [Utf8.slice?_place ends, Option.bind_some, ← Utf8.place_succ (by decide) later,
      readValue?_place ((List.suffix_cons '=' _).trans later)]
    split <;> rfl
  · rw [if_neg mark, if_neg (mt List.contains_iff_mem.1 mark)]

/-- From a boundary a turn passes its guards and comes to the boundary behind what it has read. -/
theorem turn?_place (ends : back <:+ cs) :
    turn? cs (place cs back) = some ((nextEntry back).1, place cs (nextEntry back).2) := by
  have later := (List.dropWhile_suffix isSeparator).trans ends
  rw [turn?, nextEntry, skip?_place marks_separator ends, Option.bind_some]
  cases left : back.dropWhile isSeparator with
  | nil => rw [if_pos (show (encodeChars cs).length ≤ place cs [] from Nat.le_refl _)]
  | cons c rest =>
    rw [left] at later
    obtain ⟨lead, tail, -, read⟩ := Utf8.getElem?_place later
    rw [if_neg (Nat.not_le_of_lt (List.getElem?_eq_some_iff.1 read).1), readEntry?_place later]

theorem nextEntry_suffix (cs : List Char) : (nextEntry cs).2 <:+ cs := by
  have left := List.dropWhile_suffix (l := cs) isSeparator
  unfold nextEntry
  split
  · exact List.nil_suffix
  · rename_i c rest found
    rw [found] at left
    exact (readEntry_suffix _).trans left

/-- A turn takes something away. -/
theorem nextEntry_length_lt (some : cs ≠ []) : (nextEntry cs).2.length < cs.length := by
  have left := (List.dropWhile_suffix (l := cs) isSeparator).length_le
  have head := List.head?_dropWhile_not isSeparator cs
  unfold nextEntry
  split
  · exact List.length_pos_iff.2 some
  · rename_i c rest found
    rw [found] at left head
    exact Nat.lt_of_lt_of_le (readEntry_length_lt (by simpa using head)) left

theorem parseChars_turn (cs : List Char) :
    parseChars cs = (nextEntry cs).1.toList ++ parseChars (nextEntry cs).2 := by
  rw [parseChars_eq, nextEntry]
  cases cs.dropWhile isSeparator with
  | nil => exact parseChars_nil.symm
  | cons c rest => rfl

/-- From a boundary before the end a turn comes to a later boundary. -/
theorem turn?_forward {pos : Nat} (boundary : Utf8.IsBoundary cs pos)
    (inside : pos < (encodeChars cs).length) : ∃ entry next,
      turn? cs pos = some (entry, next) ∧ pos < next ∧ next ≤ (encodeChars cs).length ∧
        Utf8.IsBoundary cs next := by
  obtain ⟨back, ends, rfl⟩ := Utf8.isBoundary_iff.1 boundary
  have some : back ≠ [] := fun none => by
    rw [none] at inside
    exact Nat.lt_irrefl _ inside
  have later := nextEntry_suffix back
  exact ⟨_, _, turn?_place ends, Utf8.place_lt ends later (nextEntry_length_lt some),
    Utf8.place_le _ _, Utf8.isBoundary_iff.2 ⟨_, later.trans ends, rfl⟩⟩

/-- Turns from a boundary on read what is parsed of the rest. -/
theorem readFrom?_place (back : List Char) (ends : back <:+ cs) :
    readFrom? cs (place cs back) = some (parseChars back) := by
  rw [readFrom?]
  by_cases none : back = []
  · subst none
    rw [if_neg (show ¬ place cs [] < (encodeChars cs).length from Nat.lt_irrefl _), parseChars_nil]
  · have shorter := nextEntry_length_lt none
    have later := nextEntry_suffix back
    have inside : place cs back < (encodeChars cs).length :=
      Utf8.place_lt ends List.nil_suffix (List.length_pos_iff.2 none)
    rw [if_pos inside, turn?_place ends]
    simp only
    rw [if_pos (Utf8.place_lt ends later shorter), readFrom?_place _ (later.trans ends),
      parseChars_turn back]
    rfl
termination_by back.length

theorem read?_chars (cs : List Char) : read? cs = some (parseChars cs) := by
  rw [read?, ← Utf8.place_self cs, readFrom?_place cs (List.suffix_refl cs)]

end TurnLemmas

/-- A parameter list is read without a guard that fails, whatever the text is, and what is read is the
parsed list. Every turn on the way moves from a boundary of the text to a later one. -/
theorem read?_inside (text : String) :
    read? text.toList = some (parse text) ∧
      ∀ pos, Utf8.IsBoundary text.toList pos → pos < (Utf8.encode text).length →
        ∃ entry next, turn? text.toList pos = some (entry, next) ∧ pos < next ∧
          next ≤ (Utf8.encode text).length ∧ Utf8.IsBoundary text.toList next :=
  ⟨read?_chars text.toList, fun _ boundary inside => turn?_forward boundary inside⟩

/-- A backslash before a character of two octets, and a quote that is missing. -/
example : read? "é=1;a=\"\\é;".toList = some [("a", "é;")] := by decide +kernel

end ParameterList

/-! ## Dispositions -/

namespace Disposition

/-- Cuts a text at the place of the first mark, and the mark off what is behind. -/
def cutAt? (mark : Char) (cs : List Char) : Option (Option (List Char × List Char)) :=
  match (encodeChars cs).findIdx? (· == octet mark) with
  | none => some none
  | some place =>
    (Utf8.split? place cs).bind fun (before, marked) =>
      (Utf8.split? 1 marked).map fun (_, after) => some (before, after)

/-- Reads a header value. -/
def read? (value : String) : Option (Option Disposition) :=
  let trimmed := Text.trimChars value.toList
  (cutAt? ';' trimmed).bind fun pieces =>
    let (kind, parameters) := match pieces with
      | some (kind, parameters) => (Text.trimChars kind, Text.trimChars parameters)
      | none => (trimmed, [])
    if isToken kind then
      (ParameterList.read? parameters).map fun parameters =>
        some (ofParameters (String.ofList kind) parameters)
    else some none

theorem cutAt?_eq {mark : Char} (ascii : mark.toNat < 0x80) (cs : List Char) :
    cutAt? mark cs = some (cut? mark cs) := by
  rw [cutAt?, (Marks.octet mark ascii).findIdx?]
  cases cut : cut? mark cs with
  | none =>
    have free := cut?_eq_none_iff.1 cut
    rw [if_neg (by simpa using free)]
  | some pieces =>
    obtain ⟨before, after⟩ := pieces
    obtain ⟨rfl, free⟩ := cut?_eq_some_iff.1 cut
    have noMark : ∀ c ∈ before, (!(c == mark)) = true := fun c here => by
      simpa using fun same : c = mark => free (same ▸ here)
    have width : (encodeChars [mark]).length = 1 := by
      rw [encodeChars, List.flatMap_singleton, Utf8.encodeChar_ascii ascii, List.length_singleton]
    have one : Utf8.split? 1 (mark :: after) = some ([mark], after) :=
      Utf8.split?_eq_some_iff.2 ⟨rfl, width⟩
    rw [if_pos (by simp), List.takeWhile_append_of_pos noMark, List.takeWhile_cons_of_neg (by simp),
      List.append_nil]
    simp only [Utf8.split?_append, Option.bind_some, one, Option.map_some]

/-- A disposition is cut between two characters, and its parameters are read without a guard that
fails. -/
theorem read?_eq (value : String) : read? value = some (ofString? value) := by
  rw [read?, ofString?]
  simp only [cutAt?_eq (by decide : (';' : Char).toNat < 0x80), Option.bind_some,
    ParameterList.read?_chars, Option.map_some]
  rcases cut? ';' (Text.trimChars value.toList) with _ | ⟨kind, parameters⟩
  · simp only
    split <;> rfl
  · simp only
    split <;> rfl

end Disposition

end HttpForms.Multipart

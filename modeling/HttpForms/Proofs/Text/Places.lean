import HttpForms.Proofs.Text.Utf8

/-!
# Places in octets and in text

A reader that goes by places has to stay inside. A place is a number of octets, and nothing about a
number says that octets stand there, nor that it is a place between two characters and not one inside of
a character. Here every access says so: a stretch of octets is refused if it does not lie inside, and a
text is not cut in the middle of a character.

Results:

1. `Bytes.slice?_eq`, `Bytes.behind?_eq` — a stretch that lies inside is given;
2. `Utf8.split?_eq_some_iff` — a text is cut exactly at its boundaries;
3. `Utf8.slice?_place` — between two boundaries stand the characters between them.
-/

namespace HttpForms

/-! ## Octets -/

namespace Bytes

/-- The octets from place `i` up to place `j`. -/
def slice? (bytes : Bytes) (i j : Nat) : Option Bytes :=
  if i ≤ j && j ≤ bytes.length then some ((bytes.drop i).take (j - i)) else none

/-- The octets from place `i` on. -/
def behind? (bytes : Bytes) (i : Nat) : Option Bytes :=
  bytes.slice? i bytes.length

section SliceLemmas

variable {bytes : Bytes} {i j : Nat}

theorem slice?_eq (order : i ≤ j) (inside : j ≤ bytes.length) :
    bytes.slice? i j = some ((bytes.drop i).take (j - i)) := by
  simp [slice?, order, inside]

theorem behind?_eq (inside : i ≤ bytes.length) : bytes.behind? i = some (bytes.drop i) := by
  rw [behind?, slice?_eq inside (Nat.le_refl _), List.take_of_length_le]
  exact Nat.le_of_eq List.length_drop

end SliceLemmas

end Bytes

/-! ## Text -/

namespace Utf8

/-- A place between two characters of a text, or at one of its ends. -/
def IsBoundary (cs : List Char) (n : Nat) : Prop :=
  ∃ front back, front ++ back = cs ∧ (encodeChars front).length = n

/-- The text cut behind its first `n` octets, which has to be at a boundary. -/
def split? : Nat → List Char → Option (List Char × List Char)
  | 0, cs => some ([], cs)
  | _ + 1, [] => none
  | n + 1, c :: cs =>
    if (String.utf8EncodeChar c).length ≤ n + 1 then
      (split? (n + 1 - (String.utf8EncodeChar c).length) cs).map fun (front, back) =>
        (c :: front, back)
    else none

/-- The text from octet `i` up to octet `j`. -/
def slice? (cs : List Char) (i j : Nat) : Option (List Char) :=
  if i ≤ j then (split? i cs).bind fun (_, back) => (split? (j - i) back).map Prod.fst else none

/-- The place where the end `back` of a text begins. -/
def place (cs back : List Char) : Nat :=
  (encodeChars cs).length - (encodeChars back).length

section PlaceLemmas

variable {c : Char} {cs front mid back rest : List Char} {n : Nat}

theorem encodeChar_pos (c : Char) : 0 < (String.utf8EncodeChar c).length := by
  rw [String.length_utf8EncodeChar]
  exact Char.utf8Size_pos c

theorem length_encodeChars_append (front back : List Char) :
    (encodeChars (front ++ back)).length = (encodeChars front).length + (encodeChars back).length := by
  rw [encodeChars_append, List.length_append]

/-- A text is cut exactly at its boundaries. -/
theorem split?_eq_some_iff :
    split? n cs = some (front, back) ↔ front ++ back = cs ∧ (encodeChars front).length = n := by
  fun_induction split? n cs generalizing front with
  | case1 cs =>
    constructor
    · rintro ⟨⟩
      exact ⟨rfl, rfl⟩
    · rintro ⟨whole, zero⟩
      cases front with
      | nil => rw [← whole]; rfl
      | cons c front =>
        have := encodeChar_pos c
        rw [encodeChars_cons, List.length_append] at zero
        omega
  | case2 n =>
    constructor
    · rintro ⟨⟩
    · rintro ⟨whole, length⟩
      obtain ⟨rfl, -⟩ := List.append_eq_nil_iff.1 whole
      cases length
  | case3 n c cs le ih =>
    rw [Option.map_eq_some_iff]
    constructor
    · rintro ⟨⟨front, back⟩, cut, same⟩
      obtain ⟨rfl, rfl⟩ := Prod.mk.inj same
      obtain ⟨rfl, length⟩ := ih.1 cut
      refine ⟨rfl, ?_⟩
      rw [encodeChars_cons, List.length_append]
      omega
    · rintro ⟨whole, length⟩
      cases front with
      | nil => cases length
      | cons d front =>
        obtain ⟨rfl, rfl⟩ := List.cons.inj whole
        rw [encodeChars_cons, List.length_append] at length
        exact ⟨(front, back), ih.2 ⟨rfl, by omega⟩, rfl⟩
  | case4 n c cs gt =>
    constructor
    · rintro ⟨⟩
    · rintro ⟨whole, length⟩
      cases front with
      | nil => cases length
      | cons d front =>
        obtain ⟨rfl, -⟩ := List.cons.inj whole
        rw [encodeChars_cons, List.length_append] at length
        omega

theorem split?_append (front back : List Char) :
    split? (encodeChars front).length (front ++ back) = some (front, back) :=
  split?_eq_some_iff.2 ⟨rfl, rfl⟩

/-- All octets of a character but the first are outside of ASCII. -/
theorem tail_not_ascii {lead b : UInt8} {tail : Bytes}
    (octets : String.utf8EncodeChar c = lead :: tail) (here : b ∈ tail) : 0x80 ≤ b.toNat := by
  by_cases ascii : c.toNat < 0x80
  · rw [encodeChar_ascii ascii] at octets
    obtain ⟨-, rfl⟩ := List.cons.inj octets
    cases here
  · refine not_ascii_of_mem_encodeChar (Nat.le_of_not_lt ascii) ?_
    rw [octets]
    exact List.mem_cons_of_mem _ here

/-! ### Where an end begins -/

theorem place_append (front back : List Char) :
    place (front ++ back) back = (encodeChars front).length := by
  rw [place, length_encodeChars_append, Nat.add_sub_cancel]

theorem place_self (cs : List Char) : place cs cs = 0 :=
  Nat.sub_self _

theorem place_nil (cs : List Char) : place cs [] = (encodeChars cs).length :=
  rfl

theorem place_le (cs back : List Char) : place cs back ≤ (encodeChars cs).length :=
  Nat.sub_le _ _

/-- The boundaries of a text are where its ends begin. -/
theorem isBoundary_iff : IsBoundary cs n ↔ ∃ back, back <:+ cs ∧ n = place cs back := by
  constructor
  · rintro ⟨front, back, rfl, rfl⟩
    exact ⟨back, List.suffix_append front back, (place_append front back).symm⟩
  · rintro ⟨back, ⟨front, rfl⟩, rfl⟩
    exact ⟨front, back, rfl, (place_append front back).symm⟩

/-- Behind the characters `mid` the place is further by as many octets as they take. -/
theorem place_skip (ends : mid ++ back <:+ cs) :
    place cs back = place cs (mid ++ back) + (encodeChars mid).length := by
  obtain ⟨front, rfl⟩ := ends
  rw [place_append, ← List.append_assoc, place_append, length_encodeChars_append]

/-- A shorter end begins at a later place. -/
theorem place_lt (ends : back <:+ cs) (later : rest <:+ back) (shorter : rest.length < back.length) :
    place cs back < place cs rest := by
  obtain ⟨_ | ⟨c, mid⟩, rfl⟩ := later
  · exact absurd shorter (Nat.lt_irrefl _)
  · have positive := encodeChar_pos c
    rw [place_skip ends, encodeChars_cons, List.length_append]
    omega

/-- From the place of an end on there stand its octets. -/
theorem drop_place (ends : back <:+ cs) : (encodeChars cs).drop (place cs back) = encodeChars back := by
  obtain ⟨front, rfl⟩ := ends
  rw [place_append, encodeChars_append, List.drop_left]

/-- At the place of an end stands the first octet of its first character. -/
theorem getElem?_place (ends : c :: back <:+ cs) : ∃ lead tail,
    String.utf8EncodeChar c = lead :: tail ∧ (encodeChars cs)[place cs (c :: back)]? = some lead := by
  obtain ⟨lead, tail, octets⟩ :=
    List.exists_cons_of_ne_nil (List.ne_nil_of_length_pos (encodeChar_pos c))
  refine ⟨lead, tail, octets, ?_⟩
  rw [← Nat.add_zero (place cs (c :: back)), ← List.getElem?_drop, drop_place ends, encodeChars_cons,
    octets]
  rfl

/-- The width of a character is how far it is to the place behind it. -/
theorem place_cons (ends : c :: back <:+ cs) :
    place cs back = place cs (c :: back) + (String.utf8EncodeChar c).length := by
  have skip := @place_skip cs [c] back ends
  rwa [encodeChars_cons, encodeChars_nil, List.append_nil] at skip

theorem place_succ (ascii : c.toNat < 0x80) (ends : c :: back <:+ cs) :
    place cs back = place cs (c :: back) + 1 := by
  rw [place_cons ends, encodeChar_ascii ascii]
  rfl

/-- Between two boundaries stand the characters between them. -/
theorem slice?_place (ends : mid ++ back <:+ cs) :
    slice? cs (place cs (mid ++ back)) (place cs back) = some mid := by
  rw [place_skip ends, slice?, if_pos (Nat.le_add_right _ _), Nat.add_sub_cancel_left]
  obtain ⟨front, rfl⟩ := ends
  rw [place_append, split?_append, Option.bind_some]
  simp only [split?_append, Option.map_some]

/-- So do their octets. -/
theorem octets_place (ends : mid ++ back <:+ cs) :
    (encodeChars cs).slice? (place cs (mid ++ back)) (place cs back) = some (encodeChars mid) := by
  have order : place cs (mid ++ back) ≤ place cs back := by
    rw [place_skip ends]
    exact Nat.le_add_right _ _
  rw [Bytes.slice?_eq order (place_le cs back), drop_place ends, place_skip ends,
    Nat.add_sub_cancel_left, encodeChars_append, List.take_left]

end PlaceLemmas

/-- A text is not cut inside of a character. -/
example : slice? ['é', 'a'] 2 3 = some ['a'] ∧ slice? ['é', 'a'] 1 3 = none := by decide

/-! ## Characters of ASCII -/

/-- The octet of a character of ASCII. -/
def octet (c : Char) : UInt8 :=
  UInt8.ofNat c.toNat

/-- A kind of octets that stands for a kind of characters: these are of ASCII, and no octet of another
character is of the kind. -/
structure Marks (p : UInt8 → Bool) (q : Char → Bool) : Prop where
  ascii : ∀ c, q c = true → c.toNat < 0x80
  same : ∀ c, ∀ b ∈ String.utf8EncodeChar c, p b = q c

section MarkLemmas

variable {p p' : UInt8 → Bool} {q q' : Char → Bool} {c : Char}
  {cs back : List Char}

theorem octet_toNat (ascii : c.toNat < 0x80) : (octet c).toNat = c.toNat := by
  rw [octet, UInt8.toNat_ofNat']
  omega

theorem getElem?_place_ascii (ascii : c.toNat < 0x80) (ends : c :: back <:+ cs) :
    (encodeChars cs)[place cs (c :: back)]? = some (octet c) := by
  obtain ⟨lead, tail, octets, read⟩ := getElem?_place ends
  rw [encodeChar_ascii ascii] at octets
  rw [read, ← (List.cons.inj octets).1]
  rfl

/-- An octet of ASCII stands for its own character. -/
theorem Marks.octet (d : Char) (ascii : d.toNat < 0x80) : Marks (· == octet d) (· == d) where
  ascii c is := by rwa [beq_iff_eq.1 is]
  same c b here := by
    have number := octet_toNat ascii
    have mem := mem_encodeChar_ascii (b := Utf8.octet d) (c := c) (by omega)
    rw [number, Char.ofNat_toNat] at mem
    rw [Bool.eq_iff_iff, beq_iff_eq, beq_iff_eq, ← mem]
    constructor
    · rintro rfl
      exact here
    · intro there
      rw [mem.1 there, encodeChar_ascii ascii, List.mem_singleton] at here
      exact here

/-- No octet of another character is the octet of a character of ASCII. -/
theorem ne_octet {d : Char} (ascii : d.toNat < 0x80) (other : c ≠ d) {b : UInt8}
    (here : b ∈ String.utf8EncodeChar c) : b ≠ octet d := by
  have same := (Marks.octet d ascii).same c b here
  rw [beq_eq_false_iff_ne.2 other] at same
  exact beq_eq_false_iff_ne.1 same

theorem Marks.or (first : Marks p q) (second : Marks p' q') :
    Marks (fun b => p b || p' b) (fun c => q c || q' c) where
  ascii c is := by
    rcases Bool.or_eq_true_iff.1 is with left | right
    · exact first.ascii c left
    · exact second.ascii c right
  same c b here := by rw [first.same c b here, second.same c b here]

/-- The first octet of a kind is the first character of the kind. -/
theorem Marks.findIdx? (marks : Marks p q) (cs : List Char) : (encodeChars cs).findIdx? p =
    if cs.any q then some (encodeChars (cs.takeWhile fun c => !q c)).length else none := by
  induction cs with
  | nil => rfl
  | cons c cs ih =>
    rw [encodeChars_cons, List.findIdx?_append, ih]
    cases is : q c with
    | true =>
      have kind := marks.same c
      rw [encodeChar_ascii (marks.ascii c is)] at kind ⊢
      simp [is, kind _ List.mem_cons_self, encodeChars_nil]
    | false =>
      have none : (String.utf8EncodeChar c).findIdx? p = none :=
        List.findIdx?_eq_none_iff.2 fun b here => (marks.same c b here).trans is
      rw [none, Option.none_or, List.any_cons, is, Bool.false_or,
        List.takeWhile_cons_of_pos (by simp [is]), encodeChars_cons, List.length_append]
      split
      · exact congrArg some (Nat.add_comm _ _)
      · rfl

end MarkLemmas

end Utf8

end HttpForms

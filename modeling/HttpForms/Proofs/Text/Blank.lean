import Mathlib.Data.List.TakeWhile
import HttpForms.Text.Blank

/-!
# What trimming leaves

Trimming leaves a stretch of the text with no blank at either end, and nothing at all only of a text
of blanks. Visible ASCII characters are never trimmed away, so a text that holds no others is its own
trim.

Results:

1. `isTrimmed_trim`, `subset_trim` — what is left of a text;
2. `trim_eq_empty_iff` — when nothing is left;
3. `isBlank_of_visible` — a visible ASCII character is not blank;
4. `trimChars_append_blanks`, `trimChars_of_solid`, `trim_of_visible` — where no character is blank
   there is nothing to trim but what stands around.
-/

namespace HttpForms.Text

variable {c first last : Char} {cs mid : List Char} {s : String}

/-- No blank stands at either end. -/
def IsTrimmed (s : String) : Prop :=
  (∀ c ∈ s.toList.head?, isBlank c = false) ∧ ∀ c ∈ s.toList.getLast?, isBlank c = false

theorem toList_trim (s : String) : (trim s).toList = trimChars s.toList := by
  rw [trim, String.toList_ofList]

theorem isBlank_head_dropWhile (here : c ∈ (cs.dropWhile isBlank).head?) : isBlank c = false := by
  have first := List.head?_dropWhile_not isBlank cs
  rw [Option.mem_def.1 here] at first
  exact first

/-- What is left of a text has no blank at either end. -/
theorem isTrimmed_trim (s : String) : IsTrimmed (trim s) := by
  unfold IsTrimmed
  rw [toList_trim, trimChars, List.head?_reverse, List.getLast?_reverse]
  refine ⟨fun c here => ?_, fun c here => isBlank_head_dropWhile here⟩
  -- The second pass leaves an end of what it starts from, so it leaves the first character alone.
  obtain ⟨front, whole⟩ := List.dropWhile_suffix (l := (s.toList.dropWhile isBlank).reverse) isBlank
  have last : c ∈ (s.toList.dropWhile isBlank).reverse.getLast? := by
    rw [← whole, List.getLast?_append, Option.mem_def.1 here]
    rfl
  rw [List.getLast?_reverse] at last
  exact isBlank_head_dropWhile last

/-- Trimming adds nothing. -/
theorem subset_trim (s : String) : (trim s).toList ⊆ s.toList := by
  rw [toList_trim, trimChars]
  intro c here
  have inner := (List.dropWhile_sublist isBlank).subset (List.mem_reverse.1 here)
  exact (List.dropWhile_sublist isBlank).subset (List.mem_reverse.1 inner)

/-- Nothing is left of a text of blanks, and of no other. -/
theorem trim_eq_empty_iff : trim s = "" ↔ ∀ c ∈ s.toList, isBlank c = true := by
  rw [← String.toList_eq_nil_iff, toList_trim, trimChars, List.reverse_eq_nil_iff,
    List.dropWhile_eq_nil_iff]
  constructor
  · intro all
    cases left : s.toList.dropWhile isBlank with
    | nil => exact List.dropWhile_eq_nil_iff.1 left
    | cons c more =>
      have blank := all c (by simp [left])
      rw [isBlank_head_dropWhile (by rw [left]; rfl)] at blank
      cases blank
  · intro blank c here
    exact blank c ((List.dropWhile_sublist isBlank).subset (List.mem_reverse.1 here))

theorem trimChars_blank_cons (blank : isBlank c = true) : trimChars (c :: cs) = trimChars cs := by
  simp [trimChars, blank]

theorem trimChars_of_ends (front : isBlank first = false) (back : isBlank last = false) :
    trimChars (first :: (mid ++ [last])) = first :: (mid ++ [last]) := by
  simp [trimChars, front, back]

/-- What is trimmed behind a text without blanks is the blanks there. -/
theorem trimChars_append_blanks {blanks : List Char} (solid : ∀ c ∈ cs, isBlank c = false)
    (blank : ∀ c ∈ blanks, isBlank c = true) : trimChars (cs ++ blanks) = cs := by
  have kept : ∀ {ds : List Char}, (∀ c ∈ ds, isBlank c = false) → ds.dropWhile isBlank = ds := by
    intro ds all
    cases ds with
    | nil => rfl
    | cons d ds => simp [all d List.mem_cons_self]
  have front : (cs ++ blanks).dropWhile isBlank = cs ++ blanks ∨ cs = [] := by
    cases cs with
    | nil => exact .inr rfl
    | cons c cs => exact .inl (by simp [solid c List.mem_cons_self])
  rcases front with front | rfl
  · rw [trimChars, front, List.reverse_append, List.dropWhile_append_of_pos (by simpa using blank),
      kept (by simpa using solid), List.reverse_reverse]
  · rw [List.nil_append, trimChars, List.dropWhile_eq_nil_iff.2 blank]
    rfl

/-- Where no character is blank there is nothing to trim. -/
theorem trimChars_of_solid (solid : ∀ c ∈ cs, isBlank c = false) : trimChars cs = cs := by
  simpa using trimChars_append_blanks solid (List.forall_mem_nil _)

/-- A visible ASCII character is not blank. -/
theorem isBlank_of_visible (low : 0x21 ≤ c.toNat) (high : c.toNat ≤ 0x7E) : isBlank c = false := by
  rw [isBlank, ← Bool.not_eq_true, inRanges_iff]
  rintro ⟨range, here, le, ge⟩
  simp only [blankRanges, List.mem_cons, List.not_mem_nil, or_false] at here
  rcases here with rfl | rfl | rfl | rfl | rfl | rfl | rfl | rfl | rfl | rfl <;> simp only at le ge <;>
    omega

/-- A text of visible ASCII characters is its own trim. -/
theorem trim_of_visible (visible : ∀ c ∈ s.toList, 0x21 ≤ c.toNat ∧ c.toNat ≤ 0x7E) :
    trim s = s := by
  have solid : ∀ c ∈ s.toList, isBlank c = false := by
    intro c here
    obtain ⟨low, high⟩ := visible c here
    exact isBlank_of_visible low high
  rw [trim, trimChars_of_solid solid, String.ofList_toList]

end HttpForms.Text

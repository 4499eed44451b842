/-!
# Limits of a reader

How much a reader asks its source for at once, and how long the headers of a section may be.
-/

namespace HttpForms.Multipart

/-- The two sizes a reader works with. -/
structure Limits where
  /-- Octets asked for at once; never zero. -/
  chunkSize : Nat
  /-- The greatest length of a block of headers with its blank line. -/
  headerLimit : Nat
  deriving DecidableEq, Repr

namespace Limits

/-- The sizes a reader has unless it is told others. -/
def default : Limits := ⟨4096, 16384⟩

/-- Sets the octets asked for at once; zero is raised to one. -/
def withChunkSize (l : Limits) (size : Nat) : Limits :=
  { l with chunkSize := max size 1 }

/-- Sets the greatest length of a block of headers. -/
def withHeaderLimit (l : Limits) (limit : Nat) : Limits :=
  { l with headerLimit := limit }

theorem chunkSize_pos (l : Limits) (size : Nat) : 0 < (l.withChunkSize size).chunkSize :=
  Nat.lt_of_lt_of_le Nat.one_pos (Nat.le_max_right size 1)

end Limits

end HttpForms.Multipart

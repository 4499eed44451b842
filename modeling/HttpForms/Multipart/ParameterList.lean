import HttpForms.Text.Blank
import HttpForms.Multipart.Token

/-!
# Parameter lists

Header values carry parameters as `name=value` or `name="value"` between semicolons. Reading is
lenient: an entry without an equals sign, or with a name that is no token, is skipped up to the next
semicolon, and what follows a closing quote begins an entry of its own. Values are written between
quotes.
-/

namespace HttpForms.Multipart.ParameterList

/-- A character between two entries. -/
def isSeparator (c : Char) : Bool :=
  c == ';' || Text.isAsciiBlank c

/-- The text up to the closing quote, with escapes undone, and what follows the quote. A backslash
at the very end stands for itself, and a missing quote is no fault. -/
def unquote : List Char → List Char × List Char
  | [] => ([], [])
  | '"' :: rest => ([], rest)
  | ['\\'] => (['\\'], [])
  | '\\' :: c :: rest => (c :: (unquote rest).1, (unquote rest).2)
  | c :: rest => (c :: (unquote rest).1, (unquote rest).2)

/-- The value after an equals sign, and what follows it. Spaces before it do not count. -/
def readValue (cs : List Char) : List Char × List Char :=
  match cs.dropWhile (· == ' ') with
  | '"' :: quoted => unquote quoted
  | plain => (Text.trimChars (plain.takeWhile (· != ';')), plain.dropWhile (· != ';'))

/-- The entry at the front, unless it has to be skipped, and what follows it. -/
def readEntry (cs : List Char) : Option (String × String) × List Char :=
  let entry := cs.takeWhile (· != ';')
  let skipped := (none, cs.dropWhile (· != ';'))
  if entry.contains '=' then
    let name := Text.trimChars (entry.takeWhile (· != '='))
    if isToken name then
      let (value, rest) := readValue (cs.dropWhile (· != '=')).tail
      (some (String.ofList name, String.ofList value), rest)
    else skipped
  else skipped

section LengthLemmas

theorem unquote_length_le (cs : List Char) : (unquote cs).2.length ≤ cs.length := by
  fun_induction unquote cs <;> simp_all <;> omega

private theorem dropWhile_length_le (p : Char → Bool) (cs : List Char) :
    (cs.dropWhile p).length ≤ cs.length :=
  (List.dropWhile_suffix p).length_le

theorem readValue_length_le (cs : List Char) : (readValue cs).2.length ≤ cs.length := by
  have spaces := dropWhile_length_le (· == ' ') cs
  unfold readValue
  split
  · rename_i quoted found
    rw [found] at spaces
    exact Nat.le_trans (unquote_length_le quoted) (Nat.le_of_succ_le spaces)
  · exact Nat.le_trans (dropWhile_length_le _ _) spaces

/-- Reading an entry takes something away, whatever stands there. -/
theorem readEntry_length_lt {c : Char} {rest : List Char} (entry : isSeparator c = false) :
    (readEntry (c :: rest)).2.length < (c :: rest).length := by
  have begins : (c != ';') = true := by simp_all [isSeparator]
  have skipped : ((c :: rest).dropWhile (· != ';')).length < (c :: rest).length := by
    simpa [List.dropWhile_cons, begins] using Nat.lt_succ_of_le (dropWhile_length_le _ rest)
  unfold readEntry
  simp only
  split
  · split
    · rename_i hasMark _
      have mark : ((c :: rest).dropWhile (· != '=')).tail.length < (c :: rest).length := by
        have le := dropWhile_length_le (· != '=') (c :: rest)
        rw [List.length_tail]
        simp only [List.length_cons] at le ⊢
        omega
      exact Nat.lt_of_le_of_lt (readValue_length_le _) mark
    · exact skipped
  · exact skipped

end LengthLemmas

/-- Reads all entries in order. -/
def parseChars (cs : List Char) : List (String × String) :=
  match _found : cs.dropWhile isSeparator with
  | [] => []
  | c :: rest => (readEntry (c :: rest)).1.toList ++ parseChars (readEntry (c :: rest)).2
termination_by cs.length
decreasing_by
  have entry : isSeparator c = false := by
    have head := List.head?_dropWhile_not isSeparator cs
    simpa [_found] using head
  have le := dropWhile_length_le isSeparator cs
  rw [_found] at le
  exact Nat.lt_of_lt_of_le (readEntry_length_lt entry) le

/-- Reads a parameter list. -/
def parse (text : String) : List (String × String) :=
  parseChars text.toList

example : parse "flag; name=x; a=\"b\\\";c\"; bad name=1" = [("name", "x"), ("a", "b\";c")] := by
  decide +kernel

/-! ## Writing -/

/-- How a character stands between quotes. A line break would end the header, so it is
percent-encoded. -/
def quoteChar : Char → List Char
  | '\r' => ['%', '0', 'D']
  | '\n' => ['%', '0', 'A']
  | '"' => ['\\', '"']
  | '\\' => ['\\', '\\']
  | c => [c]

/-- A value between quotes. -/
def quote (value : String) : String :=
  String.ofList ('"' :: value.toList.flatMap quoteChar ++ ['"'])

example : parse ("name=" ++ quote "a\\\";\r\n=") = [("name", "a\\\";%0D%0A=")] := by decide +kernel

end HttpForms.Multipart.ParameterList

import HttpForms.Multipart.Scanner.Framing

/-!
# The grammar of a body

What a body is, said of all of its octets at once and without a scanner. A body falls apart at its
boundary lines: what stands before the first one is the preamble, behind every opening line stand the
headers and the content of a section, behind the closing line stands the epilogue. Where the octets
do not go on like this, the body ends with a failure.

`Format.Parses` relates octets to the items they hold, from any place of a body to its end.
-/

namespace HttpForms.Multipart

/-! ## Boundary lines -/

/-- What a boundary line does. -/
inductive LineKind
  /-- It opens a section. -/
  | opening
  /-- It closes the body. -/
  | closing
  deriving DecidableEq, Repr

/-- The octets behind the boundary that make a boundary line of it. -/
inductive IsMarker : LineKind → Bytes → Prop
  | closing : IsMarker .closing Marker.closing
  | opening {padding : Bytes} : (∀ b ∈ padding, Marker.isPadding b = true) →
      IsMarker .opening (padding ++ Bytes.crlf)

/-- The octets could have become a marker, had there been more of them. -/
def IsCutMarker (rest : Bytes) : Prop :=
  ∃ kind missing, missing ≠ [] ∧ IsMarker kind (rest ++ missing)

/-- `text` is `before`, a boundary line, and `after`. -/
def LineAt (b : Boundary) (kind : LineKind) (before after text : Bytes) : Prop :=
  ∃ marker, IsMarker kind marker ∧ text = before ++ (b.delimiter ++ (marker ++ after))

/-- There is no boundary line in the text. -/
def NoLine (b : Boundary) (text : Bytes) : Prop :=
  ∀ kind before after, ¬ LineAt b kind before after text

/-- `text` is `before`, the first boundary line of the text, and `after`. -/
structure FirstLine (b : Boundary) (kind : LineKind) (before after text : Bytes) : Prop where
  line : LineAt b kind before after text
  first : ∀ {kind' before' after'}, LineAt b kind' before' after' text →
    before.length ≤ before'.length

/-- The body begins with a boundary line, which needs no line break before it there. -/
def OpensWith (b : Boundary) (kind : LineKind) (after text : Bytes) : Prop :=
  ∃ marker, IsMarker kind marker ∧ text = b.dashed ++ (marker ++ after)

/-! ## Headers and content -/

/-- `text` is `block`, the first end of headers in the text, and `after`. -/
structure FirstBlank (block after text : Bytes) : Prop where
  split : text = block ++ (Scanner.headerEnd ++ after)
  first : ∀ {block' after'}, text = block' ++ (Scanner.headerEnd ++ after') →
    block.length ≤ block'.length

/-- There is no end of headers in the text. -/
def NoBlank (text : Bytes) : Prop :=
  ∀ block after, text ≠ block ++ (Scanner.headerEnd ++ after)

/-- `given` is what can be read of content that no boundary line ends: all that stands before a
delimiter whose marker the end of the text cuts off, or else all but the last octets, where one more
octet might have made a delimiter. -/
inductive Released (b : Boundary) : Bytes → Bytes → Prop
  | cut {given rest : Bytes} : IsCutMarker rest → Released b (given ++ (b.delimiter ++ rest)) given
  | tail {text : Bytes} :
      (∀ given rest, text = given ++ (b.delimiter ++ rest) → ¬ IsCutMarker rest) →
      Released b text (text.take (text.length - (b.delimiter.length - 1)))

/-! ## Bodies -/

/-- What has to be known to take a body apart. -/
structure Format where
  boundary : Boundary
  charset : Charset
  /-- The greatest length of a block of headers with its blank line. -/
  headerLimit : Nat
  deriving DecidableEq, Repr

/-- What a body holds, in order. -/
inductive Item
  | preamble (bytes : Bytes)
  /-- A section begins; its content is the next item. -/
  | opened (headers : Headers)
  | content (bytes : Bytes)
  | epilogue (bytes : Bytes)
  /-- Nothing can be made of what follows. -/
  | failed (failure : Failure)
  deriving DecidableEq, Repr

/-- A place in a body. -/
inductive Place
  | front
  | behind (kind : LineKind)
  /-- Behind the headers of a section. -/
  | content
  deriving DecidableEq, Repr

/-- From the place on, the body holds the items. -/
inductive Format.Parses (f : Format) : Place → Bytes → List Item → Prop
  | atOnce {kind text after items} : OpensWith f.boundary kind after text →
      f.Parses (.behind kind) after items → f.Parses .front text (.preamble [] :: items)
  | preamble {kind text before after items} :
      (∀ kind after, ¬ OpensWith f.boundary kind after text) →
      FirstLine f.boundary kind before after text → f.Parses (.behind kind) after items →
      f.Parses .front text (.preamble before :: items)
  | noLine {text} : (∀ kind after, ¬ OpensWith f.boundary kind after text) →
      NoLine f.boundary text → f.Parses .front text [.failed .unterminatedPreamble]
  /-- A blank line at once: the section has no headers. -/
  | bare {after items} : f.Parses .content after items →
      f.Parses (.behind .opening) (Bytes.crlf ++ after) (.opened .empty :: items)
  | headers {text block after items} : ¬ Bytes.crlf <+: text → FirstBlank block after text →
      block.length + Scanner.headerEnd.length ≤ f.headerLimit → f.Parses .content after items →
      f.Parses (.behind .opening) text (.opened (Headers.parse f.charset block) :: items)
  | tooLarge {text block after} : ¬ Bytes.crlf <+: text → FirstBlank block after text →
      f.headerLimit < block.length + Scanner.headerEnd.length →
      f.Parses (.behind .opening) text [.failed (.headersTooLarge f.headerLimit)]
  | overflow {text} : ¬ Bytes.crlf <+: text → NoBlank text → Bytes.crlf.length ≤ text.length →
      f.headerLimit < text.length →
      f.Parses (.behind .opening) text [.failed (.headersTooLarge f.headerLimit)]
  | noBlank {text} : NoBlank text → ¬ Bytes.crlf <+: text →
      (Bytes.crlf.length ≤ text.length → text.length ≤ f.headerLimit) →
      f.Parses (.behind .opening) text [.failed .unterminatedHeaders]
  | content {kind text before after items} : FirstLine f.boundary kind before after text →
      f.Parses (.behind kind) after items → f.Parses .content text (.content before :: items)
  | unterminated {text given} : NoLine f.boundary text → Released f.boundary text given →
      f.Parses .content text [.content given, .failed .unterminatedBody]
  /-- The break that ends the closing line is no part of the epilogue. -/
  | epilogue {after} : f.Parses (.behind .closing) (Bytes.crlf ++ after) [.epilogue after]
  | epilogueAtOnce {text} : ¬ Bytes.crlf <+: text →
      f.Parses (.behind .closing) text [.epilogue text]

end HttpForms.Multipart

/-!
# A place in a YAML text

The cursor holds the text that is still to be read and where it stands:
the line, the column and the number of characters before it. It remembers
whether a line has ended behind the last word.
-/

namespace SmellCheck.Yaml

/-- Why a text is no YAML document. -/
inductive Fault where
  | controlCharacter
  | tabInIndentation
  | unexpectedCharacter
  | keyWithoutValue
  | valueNotAllowed
  | entryNotAllowed
  | keyNotAllowed
  | documentMarkInQuotes
  | endInQuotes
  | badEscape
  | badBlockHeader
  | badName
  | badTag
  | badDirective
  | unknownTagHandle
  | unknownAnchor
  | tooDeep
  | unexpectedToken
  deriving DecidableEq

/-- What is still to be read, and where it stands. -/
structure Cursor where
  rest : List Char
  /-- The number of characters of the whole text. -/
  size : Nat
  line : Nat := 0
  column : Nat := 0
  index : Nat := 0
  /-- A line break was read since the last character that is no blank. -/
  broken : Bool := false

/-- A space or a tab. -/
def isSpaceOrTab (c : Char) : Bool :=
  c == ' ' || c == '\t'

/-- A character that ends a line. -/
def isBreak (c : Char) : Bool :=
  c == '\n' || c == '\r' || c.toNat == 0x85 || c.toNat == 0x2028 || c.toNat == 0x2029

/-- The text is at its end, or begins with a space, a tab or a line
break. -/
def blankOrEnd : List Char → Bool
  | [] => true
  | c :: _ => isSpaceOrTab c || isBreak c

/-- The text is at its end or begins with a line break. -/
def breakOrEnd : List Char → Bool
  | [] => true
  | c :: _ => isBreak c

namespace Cursor

/-- The cursor behind the next character. -/
def skip (c : Cursor) : Cursor :=
  match c.rest with
  | [] => c
  | x :: rest =>
    { c with
      rest, column := c.column + 1, index := c.index + 1, broken := c.broken && isSpaceOrTab x }

/-- The cursor at the start of a text. -/
def start (rest : List Char) : Cursor :=
  { rest, size := rest.length }

/-- The cursor behind the next `n` characters. -/
def skipN (c : Cursor) : Nat → Cursor
  | 0 => c
  | n + 1 => c.skip.skipN n

/-- The line break that the text begins with, as it stands in a scalar,
and the cursor behind it. -/
def takeBreak (c : Cursor) : List Char × Cursor :=
  match c.rest with
  | '\r' :: '\n' :: rest => (['\n'], ⟨rest, c.size, c.line + 1, 0, c.index + 2, true⟩)
  | b :: rest =>
    if isBreak b then
      let kept := if b.toNat == 0x2028 || b.toNat == 0x2029 then b else '\n'
      ([kept], ⟨rest, c.size, c.line + 1, 0, c.index + 1, true⟩)
    else ([], c)
  | [] => ([], c)

/-- The next character satisfies the condition. -/
def next (c : Cursor) (p : Char → Bool) : Bool :=
  c.rest.head?.any p

/-- The text is at its end. -/
def atEnd (c : Cursor) : Bool :=
  c.rest.isEmpty

/-- The cursor behind the given characters, which come next and do not
end a line. -/
def skipOver (c : Cursor) (taken : List Char) : Cursor :=
  { c with
    rest := c.rest.drop taken.length, column := c.column + taken.length
    index := c.index + taken.length, broken := c.broken && taken.all isSpaceOrTab }

/-- The next `n` characters at most, as long as they satisfy the
condition, and the cursor behind them. -/
def takeUpTo (p : Char → Bool) (n : Nat) (c : Cursor) : List Char × Cursor :=
  let taken := (c.rest.take n).takeWhile p
  (taken, c.skipOver taken)

/-- The characters that satisfy the condition, and the cursor behind
them. -/
def takeWhile (c : Cursor) (p : Char → Bool) : List Char × Cursor :=
  let taken := c.rest.takeWhile p
  (taken, c.skipOver taken)

/-- The cursor behind the characters that satisfy the condition. -/
def skipWhile (c : Cursor) (p : Char → Bool) : Cursor :=
  (c.takeWhile p).2

/-- The mark of a document's start or end stands at the cursor. -/
def atMark (c : Cursor) (mark : Char) : Bool :=
  c.column == 0 &&
    match c.rest with
    | x :: y :: z :: rest => x == mark && y == mark && z == mark && blankOrEnd rest
    | _ => false

/-- A document's start or end is marked at the cursor. -/
def atDocumentMark (c : Cursor) : Bool :=
  c.atMark '-' || c.atMark '.'

end Cursor

end SmellCheck.Yaml

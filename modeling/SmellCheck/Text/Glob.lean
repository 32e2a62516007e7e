import SmellCheck.Text.Split
import SmellCheck.Text.Utf8
/-!
# Glob patterns

In a pattern `*` stands for any run of bytes without a slash, `?` for one
character but a slash, and a bracket for one character of a class; a
backslash takes the special meaning from what follows it. A pattern is a
list of chunks, each of which may float behind a star. Chunks are placed
from left to right, each at the first place where it fits, and are not
moved again. Names are matched as bytes: a floating chunk may also start
inside a character, where each byte counts as the replacement character.
-/

namespace SmellCheck

/-- One place of a pattern. -/
inductive GlobItem where
  | exact (c : Char)
  | anyChar
  | oneOf (negated : Bool) (ranges : List (Char × Char))
  deriving DecidableEq

/-- Places that follow each other, floating behind a star or not. -/
structure GlobChunk where
  floating : Bool
  items : List GlobItem
  deriving DecidableEq

/-- A pattern for names. -/
abbrev Glob := List GlobChunk

namespace Glob

/-! ## Reading -/

/-- A character of a class, which may be escaped and which something has
to follow. -/
def classChar? : List Char → Option (Char × List Char)
  | '\\' :: c :: d :: cs => some (c, d :: cs)
  | c :: d :: cs => if c = '-' || c = ']' || c = '\\' then none else some (c, d :: cs)
  | _ => none

/-- The ranges of a class up to its closing bracket, and what follows.
There is at least one range. -/
def classRanges? (fuel : Nat) (cs : List Char) : Option (List (Char × Char) × List Char) :=
  match fuel with
  | 0 => none
  | fuel + 1 => do
    let (low, rest) ← classChar? cs
    let (high, rest) ← match rest with
      | '-' :: rest => classChar? rest
      | rest => some (low, rest)
    match rest with
    | ']' :: rest => return ([(low, high)], rest)
    | rest =>
      let (ranges, rest) ← classRanges? fuel rest
      return ((low, high) :: ranges, rest)

/-- A class behind its opening bracket, and what follows. -/
def takeClass? (cs : List Char) : Option (GlobItem × List Char) :=
  let (negated, rest) := match cs with
    | '^' :: rest => (true, rest)
    | rest => (false, rest)
  (classRanges? rest.length rest).map fun (ranges, rest) => (.oneOf negated ranges, rest)

/-- The next place of a pattern that does not begin with a star, and what
follows. -/
def takeItem? : List Char → Option (GlobItem × List Char)
  | '[' :: cs => takeClass? cs
  | '?' :: cs => some (.anyChar, cs)
  | '\\' :: c :: cs => some (.exact c, cs)
  | ['\\'] => none
  | c :: cs => some (.exact c, cs)
  | [] => none

/-- The chunks of a pattern, of which the first one goes on with the
given one. -/
def readFrom? (fuel : Nat) (chunk : GlobChunk) (cs : List Char) : Option Glob :=
  match fuel, cs with
  | _, [] => some [chunk]
  | 0, _ => none
  | fuel + 1, '*' :: cs =>
    if chunk.items.isEmpty then readFrom? fuel ⟨true, []⟩ cs
    else (readFrom? fuel ⟨true, []⟩ cs).map (chunk :: ·)
  | fuel + 1, cs =>
    (takeItem? cs).bind fun (item, rest) =>
      readFrom? fuel ⟨chunk.floating, chunk.items ++ [item]⟩ rest

/-- The pattern that a text stands for; `none` if it is malformed. -/
def read? (pattern : String) : Option Glob :=
  readFrom? pattern.length ⟨false, []⟩ pattern.toList

/-! ## Matching -/

/-- The slash, which a star does not cross. -/
def slash : UInt8 := 0x2F

/-- The code point that stands for a byte of no character. -/
def replacement : Nat := 0xFFFD

/-- The code point at the beginning of a name, and the rest. -/
def takePoint? (name : Bytes) : Option (Nat × Bytes) :=
  match name, Text.decodeChar? name with
  | [], _ => none
  | _ :: _, some (c, rest) => some (c.toNat, rest)
  | _ :: rest, none => some (replacement, rest)

/-- What is left of a name behind the given bytes. -/
def bytesAfter? : (lead name : Bytes) → Option Bytes
  | [], name => some name
  | _ :: _, [] => none
  | l :: lead, b :: name => if l = b then bytesAfter? lead name else none

/-- What is left of a name behind one place. -/
def afterItem? (name : Bytes) : GlobItem → Option Bytes
  | .exact c => bytesAfter? (Text.encodeUtf8 [c]) name
  | .anyChar => if name.head? = some slash then none else (takePoint? name).map (·.2)
  | .oneOf negated ranges =>
    (takePoint? name).bind fun (n, rest) =>
      let within := ranges.any fun (low, high) => low.toNat ≤ n && n ≤ high.toNat
      if within = negated then none else some rest

/-- What is left of a name behind places in sequence. -/
def afterItems? (items : List GlobItem) (name : Bytes) : Option Bytes :=
  items.foldlM afterItem? name

/-- Where a floating chunk may start: at any rest of the name that no
slash comes before. -/
def starts : Bytes → List Bytes
  | [] => [[]]
  | b :: name => (b :: name) :: if b = slash then [] else starts name

/-- The pattern matches the whole name. -/
def accepts : Glob → Bytes → Bool
  | [], name => name.isEmpty
  | chunk :: rest, name =>
    if chunk.floating && chunk.items.isEmpty then !name.contains slash
    else
      let places := if chunk.floating then starts name else [name]
      match places.findSome? fun start =>
          (afterItems? chunk.items start).filter fun left => left.isEmpty || !rest.isEmpty with
      | some left => accepts rest left
      | none => false

/-- The text is a pattern and matches the whole name. -/
def textAccepts (pattern name : String) : Bool :=
  (read? pattern).any (·.accepts (Text.encodeUtf8 name.toList))

end Glob

end SmellCheck

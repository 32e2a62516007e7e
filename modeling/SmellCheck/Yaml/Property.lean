import SmellCheck.Text.Numeral
import SmellCheck.Text.Utf8
import SmellCheck.Yaml.Cursor
/-!
# Anchors, tags and directives

In front of a node may stand an anchor, which names it for the aliases
that repeat it, and a tag, which says what it stands for. A tag is written
with a handle, and a directive at the head of a document says what its
handles stand for.
-/

namespace SmellCheck.Yaml

/-- The letters of names and handles. -/
def isNameChar (c : Char) : Bool :=
  c.isAlphanum || c == '_' || c == '-'

/-- Reads the name of an anchor or alias; the cursor stands behind its
mark. A name ends at a blank or at one of a few marks. -/
def takeName (c : Cursor) : Except Fault (String × Cursor) :=
  let (name, c) := c.takeWhile isNameChar
  let ends := blankOrEnd c.rest || c.next fun x => "?:,]\x7d%@".toList.contains x || x.toNat == 0x60
  if name.isEmpty || !ends then .error .badName else .ok (String.ofList name, c)

/-! ## Tags -/

/-- A tag as it is written: what its handle stands for is not known yet.
The handle is empty if the tag is written out. -/
structure WrittenTag where
  handle : String
  suffix : String
  deriving DecidableEq

/-- The characters that a tag may hold. -/
def isTagChar (c : Char) : Bool :=
  isNameChar c || ";/?:@&=+$,.!~*'()[]%".toList.contains c

/-- The number of bytes of a character, by its first byte. -/
def encodedLength? (b : Nat) : Option Nat :=
  if b < 0x80 then some 1
  else if b < 0xC0 then none
  else if b < 0xE0 then some 2
  else if b < 0xF0 then some 3
  else if b < 0xF8 then some 4
  else none

/-- Reads a byte that is written as a percent sign and two digits. -/
def takeOctet (c : Cursor) : Except Fault (Nat × Cursor) :=
  match c.rest with
  | '%' :: x :: y :: _ =>
    match Text.nat? 16 [x, y] with
    | some b => .ok (b, c.skipN 3)
    | none => .error .badTag
  | _ => .error .badTag

/-- Reads the further bytes of a character. -/
def takeContinuations : (n : Nat) → Cursor → Except Fault (Bytes × Cursor)
  | 0, c => .ok ([], c)
  | n + 1, c => do
    let (b, c) ← takeOctet c
    if b / 64 != 2 then throw .badTag
    let (bs, c) ← takeContinuations n c
    return (b.toUInt8 :: bs, c)

/-- Reads a character that is written byte by byte. -/
def takeEncoded (c : Cursor) : Except Fault (Bytes × Cursor) := do
  let (b, c) ← takeOctet c
  match encodedLength? b with
  | none => throw .badTag
  | some n =>
    let (bs, c) ← takeContinuations (n - 1) c
    return (b.toUInt8 :: bs, c)

/-- Reads the characters of a tag. -/
def takeTagChars : (fuel : Nat) → Cursor → Except Fault (Bytes × Cursor)
  | 0, c => .ok ([], c)
  | fuel + 1, c =>
    match c.rest with
    | [] => .ok ([], c)
    | x :: _ =>
      if !isTagChar x then .ok ([], c)
      else do
        let (bs, c) ← if x == '%' then takeEncoded c else pure (Text.encodeUtf8 [x], c.skip)
        let (more, c) ← takeTagChars fuel c
        return (bs ++ more, c)

/-- The text that bytes stand for; a byte of no character stands for a
replacement character. -/
def lossyText (bs : Bytes) : String :=
  String.ofList <| (Text.pieces bs).map fun
    | .char c => c
    | .stray _ => Char.ofNat 0xFFFD

/-- Reads the characters of a tag behind a given beginning. There must be
one at least, unless a beginning is given. -/
def takeSuffix (lead : Option String) (c : Cursor) : Except Fault (String × Cursor) := do
  let (bs, c) ← takeTagChars c.size c
  if lead.isNone && bs.isEmpty then throw .badTag
  return (lead.getD "" ++ lossyText bs, c)

/-- Reads a handle: an exclamation mark, a name, and a second mark if
there is one. The result says whether there is. -/
def takeHandle (c : Cursor) : Except Fault (String × Bool × Cursor) :=
  if c.next (· == '!') then
    let (name, c) := c.skip.takeWhile isNameChar
    if c.next (· == '!') then .ok (String.ofList (name ++ ['!']), true, c.skip)
    else .ok (String.ofList name, false, c)
  else .error .badTag

/-- Reads a tag. -/
def takeTag (c : Cursor) : Except Fault (WrittenTag × Cursor) := do
  let (tag, c) ←
    if c.skip.next (· == '<') then do
      let (suffix, c) ← takeSuffix none (c.skipN 2)
      if !c.next (· == '>') then throw .badTag
      pure (WrittenTag.mk "" suffix, c.skip)
    else do
      let (name, closed, c) ← takeHandle c
      if closed then
        let (suffix, c) ← takeSuffix none c
        pure (⟨"!" ++ name, suffix⟩, c)
      else
        let (suffix, c) ← takeSuffix (some name) c
        pure (if suffix.isEmpty then ⟨"", "!"⟩ else ⟨"!", suffix⟩, c)
  if blankOrEnd c.rest then return (tag, c) else throw .badTag

/-! ## Directives -/

/-- What a directive says: the version of the language, or what a handle
of tags stands for. -/
inductive Directive where
  | version (major minor : Nat)
  | handle (name stands : String)
  deriving DecidableEq

/-- Reads a number of one or two digits. -/
def takeVersionNumber (c : Cursor) : Except Fault (Nat × Cursor) :=
  let (digits, c) := c.takeWhile Char.isDigit
  match Text.nat? 10 digits with
  | some n => if digits.length ≤ 2 then .ok (n, c) else .error .badDirective
  | none => .error .badDirective

/-- Reads what the directive of the given name says. -/
def takeDirectiveValue (name : String) (c : Cursor) : Except Fault (Directive × Cursor) := do
  let c := c.skipWhile isSpaceOrTab
  if name = "YAML" then
    let (major, c) ← takeVersionNumber c
    if !c.next (· == '.') then throw .badDirective
    let (minor, c) ← takeVersionNumber c.skip
    return (.version major minor, c)
  else if name = "TAG" then
    let (handle, closed, c) ← takeHandle c
    if !closed && !handle.isEmpty then throw .badDirective
    if !c.next isSpaceOrTab then throw .badDirective
    let (stands, c) ← takeSuffix none (c.skipWhile isSpaceOrTab)
    if !blankOrEnd c.rest then throw .badDirective
    return (.handle ("!" ++ handle) stands, c)
  else throw .badDirective

/-- Reads a directive and the rest of its line; the cursor stands behind
its mark. -/
def takeDirective (c : Cursor) : Except Fault (Directive × Cursor) := do
  let (name, c) := c.takeWhile isNameChar
  if name.isEmpty || !blankOrEnd c.rest then throw .badDirective
  let (d, c) ← takeDirectiveValue (String.ofList name) c
  let c := c.skipWhile isSpaceOrTab
  let c := if c.next (· == '#') then c.skipWhile fun x => !isBreak x else c
  if breakOrEnd c.rest then return (d, c.takeBreak.2) else throw .badDirective

end SmellCheck.Yaml

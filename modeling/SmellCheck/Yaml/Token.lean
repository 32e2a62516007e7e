import SmellCheck.Yaml.Property
import SmellCheck.Yaml.Scalar
/-!
# YAML tokens

The text of a document is cut into tokens: scalars, the brackets and
marks of flow collections, and the starts, entries and ends of block
collections, which follow from the indentation. A key need not be marked
as one; that a scalar or flow collection was a key shows only when its
colon is met, and the key token is then put in front of it.

Tokens are cut when they are asked for. A token is handed out once two
more wait behind it and it can no longer turn out to be a key, so a fault
shows only if it stands that near to what is read.
-/

namespace SmellCheck.Yaml

/-- A piece of a document. -/
inductive Token where
  | documentStart
  | documentEnd
  | streamEnd
  | directive (d : Directive)
  | blockSequence
  | blockMapping
  | blockEnd
  | openSequence
  | closeSequence
  | openMapping
  | closeMapping
  | entry
  | comma
  | key
  | value
  | anchor (name : String)
  | alias (name : String)
  | tag (tag : WrittenTag)
  | scalar (text : String) (plain : Bool)
  deriving DecidableEq

/-- A place at which a key may have begun. -/
structure KeyMark where
  /-- The number of the token that stands there. -/
  place : Nat
  line : Nat
  column : Nat
  index : Nat
  /-- Nothing but a key may stand there. -/
  required : Bool
  /-- It may still turn out to be a key. -/
  live : Bool
  deriving Inhabited

/-- The colon of the key would stand too far off: on another line, or
more than 1024 characters behind its start. -/
def KeyMark.passed (k : KeyMark) (c : Cursor) : Bool :=
  k.line < c.line || k.index + 1024 < c.index

/-- The state of cutting a text into tokens. -/
structure Scan where
  cursor : Cursor
  /-- A character that no text may hold stands behind the rest. -/
  cut : Bool := false
  /-- How far the first character of each line is passed over. -/
  markedTo : Nat := 0
  /-- The tokens that wait to be handed out. -/
  queue : List Token := []
  /-- The number of tokens that were handed out. -/
  taken : Nat := 0
  /-- The first waiting token may be handed out. -/
  ready : Bool := false
  /-- The column of the innermost block collection. -/
  indent : Int := -1
  /-- The columns of the block collections around it. -/
  outer : List Int := []
  /-- How many flow collections are open. -/
  depth : Nat := 0
  /-- Where a key may have begun at each level of flow collections, the
  innermost first. -/
  levels : List KeyMark := [⟨0, 0, 0, 0, false, false⟩]
  /-- The tokens that may still be keys, with the number of their level. -/
  held : List (Nat × Nat) := []
  /-- A key may begin here. -/
  keyAllowed : Bool := true

/-- How deep collections may be nested. -/
def maxDepth : Nat := 10000

namespace Scan

/-- The scan is inside of a flow collection. -/
def inFlow (s : Scan) : Bool :=
  0 < s.depth

/-- Adds a token. -/
def add (s : Scan) (t : Token) : Scan :=
  { s with queue := s.queue ++ [t] }

/-- The number of the next token that is added. -/
def place (s : Scan) : Nat :=
  s.taken + s.queue.length

/-- Puts a token in front of the one with the given number, or behind all
if that one was handed out. -/
def insertAt (s : Scan) (place : Nat) (t : Token) : Scan :=
  if s.taken ≤ place then { s with queue := s.queue.insertIdx (place - s.taken) t }
  else s.add t

/-- Where a key may have begun at the current level. -/
def mark (s : Scan) : KeyMark :=
  s.levels.headD default

/-- Sets where a key may have begun at the current level. -/
def setMark (s : Scan) (k : KeyMark) : Scan :=
  { s with levels := k :: s.levels.tail }

/-- A place at which a key may begin. -/
def markHere (s : Scan) (required live : Bool) : KeyMark :=
  ⟨s.place, s.cursor.line, s.cursor.column, s.cursor.index, required, live⟩

/-- The token with the given number is no longer held. -/
def release (s : Scan) (place : Nat) : Scan :=
  { s with held := s.held.filter (·.1 != place) }

/-- What may be a key at the current level is none. -/
def dropKey (s : Scan) : Except Fault Scan :=
  if s.mark.live then
    if s.mark.required then .error .keyWithoutValue
    else .ok ((s.setMark { s.mark with live := false }).release s.mark.place)
  else .ok s

/-- What follows may be a key, if one may begin here. -/
def noteKey (s : Scan) : Except Fault Scan :=
  if s.keyAllowed then do
    let k := s.markHere (!s.inFlow && s.indent == s.cursor.column) true
    let s ← s.dropKey
    return { (s.setMark k).release k.place with held := (k.place, s.depth) :: s.held }
  else .ok s

/-- Whether the key at a level may still turn out to be one, and the
level without it if not. -/
def isLive (s : Scan) (k : KeyMark) : Except Fault (Bool × KeyMark) :=
  if k.live && k.passed s.cursor then
    if k.required then .error .keyWithoutValue else .ok (false, { k with live := false })
  else .ok (k.live, k)

/-- Begins a block collection at the column, if it is deeper than the
current one, in front of the token with the given number. -/
def openBlock (s : Scan) (column place : Nat) (t : Token) : Except Fault Scan :=
  if !s.inFlow && s.indent < column then
    if maxDepth ≤ s.outer.length then .error .tooDeep
    else .ok { s.insertAt place t with indent := column, outer := s.indent :: s.outer }
  else .ok s

/-- Ends the block collections that are deeper than the column. -/
def closeBlocks (column : Int) : (outer : List Int) → Scan → Scan
  | [], s => s
  | i :: outer, s =>
    if !s.inFlow && column < s.indent then
      closeBlocks column outer { s.add .blockEnd with indent := i, outer }
    else s

/-- Ends the block collections that are deeper than the column. -/
def closeTo (s : Scan) (column : Int) : Scan :=
  closeBlocks column s.outer s

/-- The scan behind the next `n` characters. -/
def advance (s : Scan) (n : Nat) : Scan :=
  { s with cursor := s.cursor.skipN n }

/-! ## Between tokens -/

/-- The blanks that may be passed over. A tab may not where a key may
begin in a block. -/
def isPassable (s : Scan) (c : Char) : Bool :=
  c == ' ' || ((s.inFlow || !s.keyAllowed) && c == '\t')

/-- How far is looked for a comment. -/
def commentReach : Nat := 512

/-- Whether a comment follows within reach, behind blanks and behind line
breaks of one byte. -/
def commentFollows : (reach : Nat) → List Char → Bool
  | 0, _ | _, [] => false
  | reach + 1, c :: cs =>
    c == '#' || ((isSpaceOrTab c || c == '\n' || c == '\r') && commentFollows reach cs)

/-- Passes over blanks and line breaks. -/
def skipGap : (fuel : Nat) → Cursor → Cursor
  | 0, c => c
  | fuel + 1, c =>
    if c.next isSpaceOrTab then skipGap fuel c.skip
    else if c.next isBreak then skipGap fuel c.takeBreak.2
    else c

/-- Passes over comments, up to the end of the last one's line. The lines
of a comment may be indented by tabs and divided by empty lines. -/
def skipComments : (fuel : Nat) → Cursor → Cursor
  | 0, c => c
  | fuel + 1, c =>
    if c.next (· == '#') then
      let c := c.skipWhile fun x => !isBreak x
      let goesOn := c.next (fun x => x == '\n' || x == '\r')
        && commentFollows (commentReach - 1) (c.rest.drop 1)
      if goesOn then skipComments fuel (skipGap c.size c) else c
    else c

/-- Passes over blanks, comments and line breaks. -/
def toNextToken : (fuel : Nat) → Scan → Scan
  | 0, s => s
  | fuel + 1, s =>
    let c := s.cursor
    let c := if c.column == 0 && c.index < s.markedTo then c.skip else c
    let c := skipComments c.size (c.skipWhile s.isPassable)
    if c.next isBreak then
      toNextToken fuel { s with cursor := c.takeBreak.2, keyAllowed := s.keyAllowed || !s.inFlow }
    else { s with cursor := c }

/-- Passes over a comment on the line of the last token. A dash has none. -/
def skipLineComment (s : Scan) : Scan :=
  let blanks := s.cursor.rest.takeWhile isSpaceOrTab
  let comment := blanks.length < commentReach
    && (s.cursor.rest.drop blanks.length).head? == some '#'
  if !s.cursor.broken && s.queue.getLast? != some .entry && comment then
    { s with cursor := s.cursor.skipWhile fun x => !isBreak x }
  else s

/-! ## Tokens -/

/-- The end of the text, which ends its line too. -/
def takeEnd (s : Scan) : Except Fault Scan := do
  let c := s.cursor
  let c := if c.column == 0 then c else { c with line := c.line + 1, column := 0 }
  let s ← ({ s with cursor := c }.closeTo (-1)).dropKey
  return { s.add .streamEnd with keyAllowed := false }

/-- The mark of a document's start or end. -/
def takeDocumentMark (s : Scan) (t : Token) : Except Fault Scan := do
  let s ← (s.closeTo (-1)).dropKey
  return { (s.advance 3).add t with keyAllowed := false }

/-- A directive, which takes its whole line. -/
def takeDirectiveLine (s : Scan) : Except Fault Scan := do
  let s ← (s.closeTo (-1)).dropKey
  let (d, cursor) ← takeDirective s.cursor.skip
  return { s.add (.directive d) with cursor, keyAllowed := false }

/-- The opening bracket of a flow collection. -/
def takeOpen (s : Scan) (t : Token) : Except Fault Scan := do
  let s ← s.noteKey
  if maxDepth ≤ s.depth then throw .tooDeep
  let levels := s.markHere false false :: s.levels
  return { (s.advance 1).add t with levels, depth := s.depth + 1, keyAllowed := true }

/-- The closing bracket of a flow collection. -/
def takeClose (s : Scan) (t : Token) : Except Fault Scan := do
  let s ← s.dropKey
  let s :=
    if s.inFlow then
      { s.release s.mark.place with levels := s.levels.tail, depth := s.depth - 1 }
    else s
  return { (s.advance 1).add t with keyAllowed := false }

/-- The comma between entries of a flow collection. -/
def takeComma (s : Scan) : Except Fault Scan := do
  let s ← s.dropKey
  return { (s.advance 1).add .comma with keyAllowed := true }

/-- The dash in front of an entry of a block sequence. -/
def takeEntry (s : Scan) : Except Fault Scan := do
  if !s.inFlow && !s.keyAllowed then throw .entryNotAllowed
  let s ← s.openBlock s.cursor.column s.place .blockSequence
  let s ← s.dropKey
  return { (s.advance 1).add .entry with keyAllowed := true }

/-- The question mark in front of a key. -/
def takeKey (s : Scan) : Except Fault Scan := do
  if !s.inFlow && !s.keyAllowed then throw .keyNotAllowed
  let s ← s.openBlock s.cursor.column s.place .blockMapping
  let s ← s.dropKey
  return { (s.advance 1).add .key with keyAllowed := !s.inFlow }

/-- The colon between a key and its value. -/
def takeValue (s : Scan) : Except Fault Scan := do
  let (live, k) ← s.isLive s.mark
  let s := s.setMark k
  if live then
    let s ← (s.insertAt k.place .key).openBlock k.column k.place .blockMapping
    let s := (s.setMark { k with live := false }).release k.place
    return { (s.advance 1).add .value with keyAllowed := false }
  else
    if !s.inFlow && !s.keyAllowed then throw .valueNotAllowed
    let s ← s.openBlock s.cursor.column s.place .blockMapping
    return { (s.advance 1).add .value with keyAllowed := !s.inFlow }

/-- An alias or an anchor. -/
def takeNamed (s : Scan) (t : String → Token) : Except Fault Scan := do
  let s ← s.noteKey
  let (name, cursor) ← takeName s.cursor.skip
  return { s.add (t name) with cursor, keyAllowed := false }

/-- A tag. -/
def takeTagToken (s : Scan) : Except Fault Scan := do
  let s ← s.noteKey
  let (tag, cursor) ← takeTag s.cursor
  return { s.add (.tag tag) with cursor, keyAllowed := false }

/-- A literal or folded block. -/
def takeBlockScalar (s : Scan) (literal : Bool) : Except Fault Scan := do
  let s ← s.dropKey
  let (text, cursor) ← takeBlock literal s.indent s.cursor.skip
  return { s.add (.scalar (String.ofList text) false) with cursor, keyAllowed := true }

/-- A scalar between quotes. -/
def takeQuotedScalar (s : Scan) (single : Bool) : Except Fault Scan := do
  let s ← s.noteKey
  let (text, cursor) ← takeQuoted single [] (s.cursor.size + 1) s.cursor.skip
  return { s.add (.scalar (String.ofList text) false) with cursor, keyAllowed := false }

/-- A plain scalar. -/
def takePlainScalar (s : Scan) : Except Fault Scan := do
  let s ← s.noteKey
  let (text, broken, cursor) ←
    takePlain s.inFlow (s.indent + 1).toNat [] {} (s.cursor.size + 1) s.cursor
  return { s.add (.scalar (String.ofList text) true) with cursor, keyAllowed := broken }

/-- The characters that a plain scalar cannot begin with. -/
def isIndicator (c : Char) : Bool :=
  "-?:,[]\x7b\x7d#&*!|>'\"%@".toList.contains c || c.toNat == 0x60

/-- A plain scalar begins with the text. -/
def startsPlain (s : Scan) : List Char → Bool
  | [] => false
  | c :: rest =>
    if c == '-' then !rest.head?.any isSpaceOrTab
    else if c == '?' || c == ':' then !s.inFlow && !blankOrEnd rest
    else !(isSpaceOrTab c || isBreak c || isIndicator c)

/-- A token that is neither the end of the text nor a line of its own. -/
def takeInner (s : Scan) (c : Char) (rest : List Char) : Except Fault Scan :=
  if c == '[' then s.takeOpen .openSequence
  else if c == '\x7b' then s.takeOpen .openMapping
  else if c == ']' then s.takeClose .closeSequence
  else if c == '\x7d' then s.takeClose .closeMapping
  else if c == ',' then s.takeComma
  else if c == '-' && blankOrEnd rest then s.takeEntry
  else if c == '?' && (s.inFlow || blankOrEnd rest) then s.takeKey
  else if c == ':' && (s.inFlow || blankOrEnd rest) then s.takeValue
  else if c == '*' then s.takeNamed .alias
  else if c == '&' then s.takeNamed .anchor
  else if c == '!' then s.takeTagToken
  else if c == '|' && !s.inFlow then s.takeBlockScalar true
  else if c == '>' && !s.inFlow then s.takeBlockScalar false
  else if c == '\'' then s.takeQuotedScalar true
  else if c == '"' then s.takeQuotedScalar false
  else if s.startsPlain (c :: rest) then s.takePlainScalar
  else .error .unexpectedCharacter

/-- The next token, behind blanks and comments. -/
def takeToken (s : Scan) : Except Fault Scan :=
  match s.cursor.rest with
  | [] => s.takeEnd
  | c :: rest =>
    if s.cursor.column == 0 && c == '%' then s.takeDirectiveLine
    else if s.cursor.atMark '-' then s.takeDocumentMark .documentStart
    else if s.cursor.atMark '.' then s.takeDocumentMark .documentEnd
    else do
      let s ← s.takeInner c rest
      return s.skipLineComment

/-- Cuts off the next token, and closes the blocks that end in front of
it. -/
def fetch (s : Scan) : Except Fault Scan := do
  let s := toNextToken (s.cursor.size + 1) s
  let s := s.closeTo s.cursor.column
  if s.cut && (s.cursor.rest.drop 3).isEmpty then throw .controlCharacter
  let s ← s.takeToken
  if s.cut && s.cursor.atEnd then throw .controlCharacter
  return s

/-- Whether the first waiting token may still turn out to be a key. -/
def mustWait (s : Scan) : Except Fault (Bool × Scan) :=
  match s.held.lookup s.taken with
  | none => .ok (false, s)
  | some level =>
    if level ≤ s.depth then do
      let i := s.depth - level
      let (live, k) ← s.isLive (s.levels.getD i default)
      return (live, { s with levels := s.levels.set i k })
    else .ok (false, s)

/-- Cuts off tokens until the first may be handed out. -/
def fill : (fuel : Nat) → Scan → Except Fault Scan
  | 0, _ => .error .unexpectedToken
  | fuel + 1, s => do
    match s.queue with
    | _ :: _ :: _ :: _ =>
      let (wait, s) ← s.mustWait
      if wait then fill fuel (← s.fetch) else return { s with ready := true }
    | _ => fill fuel (← s.fetch)

/-- The first waiting token. -/
def peek (s : Scan) : Except Fault (Token × Scan) := do
  let s ← if s.ready then pure s else fill (s.cursor.size + 8) s
  return (s.queue.headD .streamEnd, s)

/-- The scan once the first waiting token is handed out. -/
def drop (s : Scan) : Scan :=
  { s with
    queue := s.queue.tail, taken := s.taken + 1, ready := false
    held := s.held.filter (s.taken < ·.1) }

end Scan

/-! ## The text -/

/-- The characters that a text may hold. -/
def isAllowed (c : Char) : Bool :=
  let n := c.toNat
  n == 0x09 || n == 0x0A || n == 0x0D || (0x20 ≤ n && n ≤ 0x7E) || n == 0x85
    || (0xA0 ≤ n && n ≤ 0xFFFD) || 0x10000 ≤ n

/-- The byte order mark. -/
def isByteOrderMark (c : Char) : Bool :=
  c.toNat == 0xFEFF

/-- The number of bytes of a text that are read at once. -/
def portion : Nat := 512

/-- The characters that fit into so many bytes, and the rest. -/
def splitBytes : (room : Nat) → List Char → List Char × List Char
  | _, [] => ([], [])
  | room, c :: cs =>
    if c.utf8Size ≤ room then
      let (first, rest) := splitBytes (room - c.utf8Size) cs
      (c :: first, rest)
    else ([], c :: cs)

/-- The text in front of the first portion that holds a character which no
text may hold, and whether there is one. -/
def readable : (fuel room : Nat) → List Char → List Char × Bool
  | 0, _, _ => ([], false)
  | fuel + 1, room, cs =>
    let (first, rest) := splitBytes room cs
    if !first.all isAllowed then ([], true)
    else if rest.isEmpty then (first, false)
    else
      let (more, cut) := readable fuel portion rest
      (first ++ more, cut)

/-- The scan at the start of a text. A byte order mark in front is dropped.
A second one is passed over, and so is then the first character of each
line of the first portion. -/
def Scan.start (source : String) : Scan :=
  let cs := source.toList
  let (room, cs) :=
    if cs.head?.any isByteOrderMark then (portion - 3, cs.tail) else (portion, cs)
  let markedTo :=
    if cs.head?.any isByteOrderMark then max 1 ((splitBytes room cs).1.length - 2) else 0
  let (rest, cut) := readable (cs.length + 1) room cs
  { cursor := .start rest, cut, markedTo }

end SmellCheck.Yaml

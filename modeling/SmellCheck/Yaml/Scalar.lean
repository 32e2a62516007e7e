import SmellCheck.Text.Numeral
import SmellCheck.Yaml.Cursor
/-!
# YAML scalars

Scalars come plain, between single or double quotes, and as literal or
folded blocks. Inside of plain and quoted scalars a single line break is
a space and of several the first is dropped. Every scan ends behind the
scalar, which for plain scalars includes the blanks that follow.
-/

namespace SmellCheck.Yaml

/-- The blanks and line breaks between two words of a scalar. -/
structure Gap where
  /-- The blanks in front of the first line break. -/
  blanks : List Char := []
  /-- The first line break. -/
  firstBreak : List Char := []
  /-- The further line breaks. -/
  moreBreaks : List Char := []
  /-- A line break was seen. -/
  broken : Bool := false

/-- What a gap stands for. -/
def Gap.text (g : Gap) : List Char :=
  if g.broken then
    if g.firstBreak.head? == some '\n' then
      if g.moreBreaks.isEmpty then [' '] else g.moreBreaks
    else g.firstBreak ++ g.moreBreaks
  else g.blanks

/-- Reads blanks and line breaks. A tab that stands in for indentation
below the given column is refused. -/
def takeGap (tabsFrom : Nat) (g : Gap) : (fuel : Nat) → Cursor → Except Fault (Gap × Cursor)
  | 0, c => .ok (g, c)
  | fuel + 1, c =>
    match c.rest with
    | [] => .ok (g, c)
    | x :: _ =>
      if isSpaceOrTab x then
        if g.broken && c.column < tabsFrom && x == '\t' then .error .tabInIndentation
        else if g.broken then takeGap tabsFrom g fuel c.skip
        else takeGap tabsFrom { g with blanks := g.blanks ++ [x] } fuel c.skip
      else if isBreak x then
        let (b, c) := c.takeBreak
        let g :=
          if g.broken then { g with moreBreaks := g.moreBreaks ++ b }
          else { g with firstBreak := b, broken := true }
        takeGap tabsFrom g fuel c
      else .ok (g, c)

/-! ## Plain scalars -/

/-- A plain scalar ends in front of the text. -/
def endsPlain (inFlow : Bool) : List Char → Bool
  | [] => true
  | ':' :: rest => blankOrEnd rest
  | c :: _ =>
    isSpaceOrTab c || isBreak c || (inFlow && ",?[]\x7b\x7d".toList.contains c)

/-- Reads a word of a plain scalar. -/
def takePlainWord (inFlow : Bool) : (fuel : Nat) → Cursor → List Char × Cursor
  | 0, c => ([], c)
  | fuel + 1, c =>
    if endsPlain inFlow c.rest then ([], c)
    else
      match c.rest with
      | [] => ([], c)
      | x :: _ =>
        let (word, c) := takePlainWord inFlow fuel c.skip
        (x :: word, c)

/-- Reads words and the gaps between them. The result says also whether
a line break follows the scalar. -/
def takePlain (inFlow : Bool) (indent : Nat) (text : List Char) (g : Gap) :
    (fuel : Nat) → Cursor → Except Fault (List Char × Bool × Cursor)
  | 0, c => .ok (text, g.broken, c)
  | fuel + 1, c =>
    if c.atDocumentMark || c.next (· == '#') then .ok (text, g.broken, c)
    else
      let (word, c) := takePlainWord inFlow c.size c
      let (text, g) := if word.isEmpty then (text, g) else (text ++ g.text ++ word, {})
      if c.next fun x => isSpaceOrTab x || isBreak x then do
        let (g, c) ← takeGap indent g c.size c
        if !inFlow && c.column < indent then .ok (text, g.broken, c)
        else takePlain inFlow indent text g fuel c
      else .ok (text, g.broken, c)

/-! ## Quoted scalars -/

/-- The character that a letter stands for behind a backslash. -/
def escapedChar? : Char → Option Char
  | '0' => some (Char.ofNat 0x00)
  | 'a' => some (Char.ofNat 0x07)
  | 'b' => some (Char.ofNat 0x08)
  | 't' | '\t' => some '\t'
  | 'n' => some '\n'
  | 'v' => some (Char.ofNat 0x0B)
  | 'f' => some (Char.ofNat 0x0C)
  | 'r' => some '\r'
  | 'e' => some (Char.ofNat 0x1B)
  | ' ' => some ' '
  | '"' => some '"'
  | '\'' => some '\''
  | '\\' => some '\\'
  | 'N' => some (Char.ofNat 0x85)
  | '_' => some (Char.ofNat 0xA0)
  | 'L' => some (Char.ofNat 0x2028)
  | 'P' => some (Char.ofNat 0x2029)
  | _ => none

/-- The number of hexadecimal digits behind an escape letter. -/
def escapeWidth? : Char → Option Nat
  | 'x' => some 2
  | 'u' => some 4
  | 'U' => some 8
  | _ => none

/-- Reads an escape; the cursor stands at its backslash. -/
def takeEscape (c : Cursor) : Except Fault (Char × Cursor) :=
  match c.rest with
  | _ :: letter :: rest =>
    match escapedChar? letter, escapeWidth? letter with
    | some x, _ => .ok (x, c.skipN 2)
    | none, some width =>
      match Text.nat? 16 (rest.take width) with
      | some n =>
        if (rest.take width).length == width && n.isValidChar then
          .ok (Char.ofNat n, c.skipN (2 + width))
        else .error .badEscape
      | none => .error .badEscape
    | none, none => .error .badEscape
  | _ => .error .badEscape

/-- How a quoted word ends: at blanks, at the closing quote, or at a
line break behind a backslash. -/
inductive WordEnd where
  | blank
  | quote
  | escapedBreak

/-- Reads a word of a quoted scalar. -/
def takeQuotedWord (single : Bool) (text : List Char) :
    (fuel : Nat) → Cursor → Except Fault (List Char × WordEnd × Cursor)
  | 0, c => .ok (text, .blank, c)
  | fuel + 1, c =>
    if blankOrEnd c.rest then .ok (text, .blank, c)
    else
      match single, c.rest with
      | true, '\'' :: '\'' :: _ => takeQuotedWord single (text ++ ['\'']) fuel (c.skipN 2)
      | true, '\'' :: _ => .ok (text, .quote, c)
      | false, '"' :: _ => .ok (text, .quote, c)
      | false, '\\' :: rest =>
        if rest.head?.any isBreak then .ok (text, .escapedBreak, c.skip.takeBreak.2)
        else
          match takeEscape c with
          | .ok (x, c) => takeQuotedWord single (text ++ [x]) fuel c
          | .error e => .error e
      | _, x :: _ => takeQuotedWord single (text ++ [x]) fuel c.skip
      | _, [] => .ok (text, .blank, c)

/-- Reads up to the closing quote. -/
def takeQuoted (single : Bool) (text : List Char) :
    (fuel : Nat) → Cursor → Except Fault (List Char × Cursor)
  | 0, _ => .error .endInQuotes
  | fuel + 1, c => do
    if c.atDocumentMark then throw .documentMarkInQuotes
    if c.atEnd then throw .endInQuotes
    let (text, ending, c) ← takeQuotedWord single text (c.size + 1) c
    match ending with
    | .quote => return (text, c.skip)
    | .blank =>
      let (g, c) ← takeGap 0 {} c.size c
      takeQuoted single (text ++ g.text) fuel c
    | .escapedBreak =>
      if c.next (· == '"') then return (text, c.skip)
      let (g, c) ← takeGap 0 { broken := true } c.size c
      takeQuoted single (text ++ g.text) fuel c

/-! ## Block scalars -/

/-- What becomes of the line breaks at the end of a block. -/
inductive Chomp where
  | strip
  | clip
  | keep

/-- The chomping that an indicator asks for. -/
def chompOf? : Char → Option Chomp
  | '+' => some .keep
  | '-' => some .strip
  | _ => none

/-- Reads a chomping indicator, if there is one. -/
def takeChomp (c : Cursor) : Option Chomp × Cursor :=
  match c.rest.head?.bind chompOf? with
  | some chomp => (some chomp, c.skip)
  | none => (none, c)

/-- Reads an indentation indicator, if there is one. -/
def takeIncrement (c : Cursor) : Except Fault (Option Nat × Cursor) :=
  match c.rest with
  | x :: _ =>
    if x.isDigit then
      if x == '0' then .error .badBlockHeader
      else .ok (some (x.toNat - '0'.toNat), c.skip)
    else .ok (none, c)
  | [] => .ok (none, c)

/-- Reads the indicators behind the mark of a block, in either order. -/
def takeBlockHeader (c : Cursor) : Except Fault (Chomp × Option Nat × Cursor) := do
  let (chomp, c) := takeChomp c
  let (increment, c) ← takeIncrement c
  let (chomp, c) := match chomp, increment with
    | none, some _ => takeChomp c
    | chomp, _ => (chomp, c)
  return (chomp.getD .clip, increment, c)

/-- Reads the rest of the line behind the indicators of a block. -/
def endBlockHeader (c : Cursor) : Except Fault Cursor :=
  let c := c.skipWhile isSpaceOrTab
  let c := if c.next (· == '#') then c.skipWhile fun x => !isBreak x else c
  if breakOrEnd c.rest then .ok c.takeBreak.2 else .error .badBlockHeader

/-- Reads empty lines and the indentation of the next one: the line
breaks, the deepest column seen, and the cursor. The indentation may not
be known yet. -/
def takeBlockBreaks (indent : Option Nat) (breaks : List Char) (deepest : Nat) :
    (fuel : Nat) → Cursor → Except Fault (List Char × Nat × Cursor)
  | 0, c => .ok (breaks, deepest, c)
  | fuel + 1, c =>
    let room := match indent with
      | some n => n - c.column
      | none => c.size
    let c := (c.takeUpTo (· == ' ') room).2
    let deepest := max deepest c.column
    if indent.all (c.column < ·) && c.next (· == '\t') then .error .tabInIndentation
    else if c.next isBreak then
      let (b, c) := c.takeBreak
      takeBlockBreaks indent (breaks ++ b) deepest fuel c
    else .ok (breaks, deepest, c)

/-- The lines of a block read so far. -/
structure BlockText where
  text : List Char := []
  /-- The line break behind the last line. -/
  lastBreak : List Char := []
  /-- The line breaks of the empty lines behind it. -/
  emptyLines : List Char := []
  /-- The last line begins with a blank. -/
  indented : Bool := false

/-- Reads the lines of a block. -/
def takeBlockLines (literal : Bool) (indent : Nat) (b : BlockText) :
    (fuel : Nat) → Cursor → Except Fault (BlockText × Cursor)
  | 0, c => .ok (b, c)
  | fuel + 1, c =>
    if c.column == indent && !c.atEnd then do
      let indented := c.next isSpaceOrTab
      let folds := !literal && !b.indented && !indented && b.lastBreak.head? == some '\n'
      let joint := if folds then if b.emptyLines.isEmpty then [' '] else [] else b.lastBreak
      let (line, c) := c.takeWhile fun x => !isBreak x
      let (lastBreak, c) := c.takeBreak
      let (emptyLines, _, c) ← takeBlockBreaks (some indent) [] 0 (c.size + 1) c
      takeBlockLines literal indent
        { text := b.text ++ joint ++ b.emptyLines ++ line, lastBreak, emptyLines, indented }
        fuel c
    else .ok (b, c)

/-- Reads a block scalar; the cursor stands behind its mark, and the
block is nested in one with the given indentation. -/
def takeBlock (literal : Bool) (parent : Int) (c : Cursor) :
    Except Fault (List Char × Cursor) := do
  let (chomp, increment, c) ← takeBlockHeader c
  let c ← endBlockHeader c
  let given := increment.map fun n => (max parent 0).toNat + n
  let (emptyLines, deepest, c) ← takeBlockBreaks given [] 0 (c.size + 1) c
  let indent := given.getD (max (max deepest (parent + 1).toNat) 1)
  let (b, c) ← takeBlockLines literal indent { emptyLines } (c.size + 1) c
  let ending := match chomp with
    | .strip => []
    | .clip => b.lastBreak
    | .keep => b.lastBreak ++ b.emptyLines
  return (b.text ++ ending, c)

end SmellCheck.Yaml

import SmellCheck.Text.Numeral
import SmellCheck.Text.Printable
import SmellCheck.Text.Utf8
/-!
# Quoted literals

`quote` writes a byte string between double quotes: printable characters
stand for themselves, the others are escaped, and so are bytes that
encode no character. `unquote?` reads such a literal, a raw literal
between backquotes, or a single character between apostrophes.
-/

namespace SmellCheck.Text

/-! ## Writing -/

/-- The letter that stands for a control character, a backslash or a
quote behind a backslash. -/
def escapeLetter? (c : Char) : Option Char :=
  match c.toNat with
  | 0x07 => some 'a'
  | 0x08 => some 'b'
  | 0x0C => some 'f'
  | 0x0A => some 'n'
  | 0x0D => some 'r'
  | 0x09 => some 't'
  | 0x0B => some 'v'
  | 0x5C => some '\\'
  | 0x22 => some '"'
  | _ => none

/-- The number as a hexadecimal escape: a backslash, a mark and a fixed
number of digits. -/
def hexEscape (mark : Char) (width n : Nat) : List Char :=
  '\\' :: mark :: padZeros width (hexDigits n)

/-- A character as it stands between double quotes. -/
def quoteChar (c : Char) : List Char :=
  match escapeLetter? c with
  | some letter => ['\\', letter]
  | none =>
    if isPrintable c then [c]
    else if c.toNat < 0x80 then hexEscape 'x' 2 c.toNat
    else if c.toNat < 0x10000 then hexEscape 'u' 4 c.toNat
    else hexEscape 'U' 8 c.toNat

/-- A piece of a byte string as it stands between double quotes. -/
def quotePiece : Piece → List Char
  | .char c => quoteChar c
  | .stray b => hexEscape 'x' 2 b.toNat

/-- A byte string as a literal between double quotes. -/
def quoteBytes (bs : Bytes) : List Char :=
  '"' :: (pieces bs).flatMap quotePiece ++ ['"']

/-- A text as a literal between double quotes. -/
def quote (cs : List Char) : List Char :=
  '"' :: cs.flatMap quoteChar ++ ['"']

/-- A text as a literal between double quotes. -/
def quoted (s : String) : String :=
  String.ofList (quote s.toList)

/-! ## Reading -/

/-- The number written by the next `k` digits of the base, and the rest. -/
def takeDigits? (base : Nat) : (k acc : Nat) → List Char → Option (Nat × List Char)
  | 0, acc, cs => some (acc, cs)
  | _ + 1, _, [] => none
  | k + 1, acc, c :: cs =>
    (digitIn? base c).bind fun d => takeDigits? base k (acc * base + d) cs

/-- The control character that a letter stands for behind a backslash. -/
def escapedControl? : Char → Option UInt8
  | 'a' => some 0x07
  | 'b' => some 0x08
  | 'f' => some 0x0C
  | 'n' => some 0x0A
  | 'r' => some 0x0D
  | 't' => some 0x09
  | 'v' => some 0x0B
  | _ => none

/-- The bytes of the character with the given number, if there is one. -/
def encodeNumber? (n : Nat) : Option Bytes :=
  if n.isValidChar then some (String.utf8EncodeChar (Char.ofNat n)) else none

/-- The byte with the given number, if there is one. -/
def byte? (n : Nat) : Option Bytes :=
  if n ≤ 255 then some [UInt8.ofNat n] else none

/-- The bytes that an escape stands for in a literal between the given
quotes, and the text behind it. -/
def unescape? (mark : Char) : List Char → Option (Bytes × List Char)
  | [] => none
  | c :: cs =>
    match escapedControl? c with
    | some b => some ([b], cs)
    | none =>
      if c = '\\' ∨ c = mark then some ([UInt8.ofNat c.toNat], cs)
      else if c = 'x' then
        (takeDigits? 16 2 0 cs).bind fun (n, rest) => (byte? n).map (·, rest)
      else if c = 'u' then
        (takeDigits? 16 4 0 cs).bind fun (n, rest) => (encodeNumber? n).map (·, rest)
      else if c = 'U' then
        (takeDigits? 16 8 0 cs).bind fun (n, rest) => (encodeNumber? n).map (·, rest)
      else
        (takeDigits? 8 3 0 (c :: cs)).bind fun (n, rest) => (byte? n).map (·, rest)

theorem takeDigits?_length_le {base k acc n : Nat} {cs rest : List Char}
    (h : takeDigits? base k acc cs = some (n, rest)) : rest.length ≤ cs.length := by
  fun_induction takeDigits? base k acc cs with
  | case1 => simp_all
  | case2 => simp at h
  | case3 k acc c cs ih =>
    obtain ⟨d, _, hd⟩ := Option.bind_eq_some_iff.mp h
    exact Nat.le_succ_of_le (ih d hd)

theorem unescape?_length_le {mark : Char} {cs rest : List Char} {bs : Bytes}
    (h : unescape? mark cs = some (bs, rest)) : rest.length ≤ cs.length := by
  -- Every numeric escape hands on what is left behind its digits.
  have numeric {base k : Nat} {ds : List Char} {f : Nat → Option Bytes}
      (hf : ((takeDigits? base k 0 ds).bind fun (n, more) => (f n).map (·, more))
        = some (bs, rest)) : rest.length ≤ ds.length := by
    obtain ⟨⟨n, more⟩, hd, hm⟩ := Option.bind_eq_some_iff.mp hf
    obtain ⟨_, _, he⟩ := Option.map_eq_some_iff.mp hm
    cases he
    exact takeDigits?_length_le hd
  cases cs with
  | nil => simp [unescape?] at h
  | cons c cs =>
    simp only [List.length_cons]
    rw [unescape?] at h
    split at h
    · simp_all
    · split at h
      · simp_all
      split at h
      · exact Nat.le_succ_of_le (numeric h)
      split at h
      · exact Nat.le_succ_of_le (numeric h)
      split at h
      · exact Nat.le_succ_of_le (numeric h)
      · exact numeric h

/-- The bytes of one character or escape in front of the closing quote,
and the text behind it. -/
def unquoteChar? (mark : Char) : List Char → Option (Bytes × List Char)
  | [] => none
  | c :: cs =>
    if c = mark ∨ c = '\n' then none
    else if c = '\\' then unescape? mark cs
    else some (String.utf8EncodeChar c, cs)

theorem unquoteChar?_length_lt {mark : Char} {cs rest : List Char} {bs : Bytes}
    (h : unquoteChar? mark cs = some (bs, rest)) : rest.length < cs.length := by
  cases cs with
  | nil => simp [unquoteChar?] at h
  | cons c cs =>
    rw [unquoteChar?] at h
    split at h
    · simp at h
    · split at h
      · exact Nat.lt_succ_of_le (unescape?_length_le h)
      · cases h
        simp

/-- The bytes up to a closing double quote that ends the text. -/
def unquoteRest? (cs : List Char) : Option Bytes :=
  if cs = ['"'] then some []
  else
    match h : unquoteChar? '"' cs with
    | some (bs, rest) =>
      have := unquoteChar?_length_lt h
      (unquoteRest? rest).map (bs ++ ·)
    | none => none
termination_by cs.length

/-- The bytes of one character between apostrophes; none at all are let
pass as the empty string. -/
def unquoteSingle? (cs : List Char) : Option Bytes :=
  if cs = ['\''] then some []
  else
    match unquoteChar? '\'' cs with
    | some (bs, ['\'']) => some bs
    | _ => none

/-- The bytes up to a closing backquote that ends the text. Carriage
returns are left out. -/
def unquoteRaw? : List Char → Option Bytes
  | [] => none
  | c :: cs =>
    if c.toNat = 0x60 then if cs.isEmpty then some [] else none
    else if c = '\r' then unquoteRaw? cs
    else (unquoteRaw? cs).map (String.utf8EncodeChar c ++ ·)

/-- The byte string that a literal stands for. -/
def unquote? : List Char → Option Bytes
  | '"' :: cs => unquoteRest? cs
  | '\'' :: cs => unquoteSingle? cs
  | c :: cs => if c.toNat = 0x60 then unquoteRaw? cs else none
  | [] => none

end SmellCheck.Text

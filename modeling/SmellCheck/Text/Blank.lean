/-!
# Blanks, trimming and words

A blank is a character with the white-space property of the character
standard. Trimming takes blanks off both ends, and the words of a text
are its maximal runs of other characters.
-/

namespace SmellCheck.Text

/-- The white-space characters: the five controls from tab to carriage
return, the space, the next-line control, the no-break space, and the
typographic spaces. The zero-width space and the byte order mark are not
among them. -/
def isBlank (c : Char) : Bool :=
  let n := c.toNat
  (9 ≤ n && n ≤ 13) || n == 0x20 || n == 0x85 || n == 0xA0 || n == 0x1680
    || (0x2000 ≤ n && n ≤ 0x200A) || n == 0x2028 || n == 0x2029 || n == 0x202F
    || n == 0x205F || n == 0x3000

/-- The text without the blanks at its end. -/
def trimRight (cs : List Char) : List Char :=
  (cs.reverse.dropWhile isBlank).reverse

/-- The text without the blanks at either end. -/
def trim (cs : List Char) : List Char :=
  trimRight (cs.dropWhile isBlank)

/-- The words of a text whose current word, read backwards, is `word`. -/
def wordsAfter (word : List Char) : List Char → List (List Char)
  | [] => if word.isEmpty then [] else [word.reverse]
  | c :: cs =>
    if isBlank c then
      if word.isEmpty then wordsAfter [] cs else word.reverse :: wordsAfter [] cs
    else wordsAfter (c :: word) cs

/-- The maximal runs of characters that are not blank. -/
def words (cs : List Char) : List (List Char) :=
  wordsAfter [] cs

end SmellCheck.Text

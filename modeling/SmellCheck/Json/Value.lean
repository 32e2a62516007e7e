import SmellCheck.Text.Numeral
/-!
# JSON values

JSON values and their written forms: compact, or with each member and
item on a line of its own. Members keep the order in which they are
given.
-/

namespace SmellCheck

/-- A JSON value with integers for numbers. -/
inductive JsonValue where
  | null
  | bool (b : Bool)
  | int (i : Int)
  | string (s : String)
  | array (items : List JsonValue)
  | object (members : List (String × JsonValue))

namespace JsonValue

/-- An array of strings. -/
def strings (xs : List String) : JsonValue :=
  array (xs.map string)

/-! ## Strings -/

/-- The letter that stands for a character behind a backslash. -/
def escapeLetter? (c : Char) : Option Char :=
  match c.toNat with
  | 0x08 => some 'b'
  | 0x09 => some 't'
  | 0x0A => some 'n'
  | 0x0C => some 'f'
  | 0x0D => some 'r'
  | 0x22 => some '"'
  | 0x5C => some '\\'
  | _ => none

/-- The character is written by its number: control characters, the marks
that mean something in a web page, and the separators of lines and
paragraphs. -/
def isNumbered (c : Char) : Bool :=
  c.toNat < 0x20 || ['<', '>', '&'].contains c || c.toNat == 0x2028 || c.toNat == 0x2029

/-- A character as it stands in a string. -/
def charText (c : Char) : List Char :=
  match escapeLetter? c with
  | some letter => ['\\', letter]
  | none =>
    if isNumbered c then '\\' :: 'u' :: Text.padZeros 4 (Text.hexDigits c.toNat) else [c]

/-- A string between its quotes. -/
def stringText (s : String) : String :=
  String.ofList ('"' :: s.toList.flatMap charText ++ ['"'])

/-! ## Layouts -/

/-- A value that is no collection. -/
def atomText : JsonValue → String
  | bool true => "true"
  | bool false => "false"
  | int i => Text.decimal i
  | string s => stringText s
  | _ => "null"

mutual

/-- A value without blanks. -/
def compact : JsonValue → String
  | array items => "[" ++ ",".intercalate (compactItems items) ++ "]"
  | object members => "\x7b" ++ ",".intercalate (compactMembers members) ++ "\x7d"
  | atom => atom.atomText

/-- The items of an array without blanks. -/
def compactItems : List JsonValue → List String
  | [] => []
  | item :: items => item.compact :: compactItems items

/-- The members of an object without blanks. -/
def compactMembers : List (String × JsonValue) → List String
  | [] => []
  | (key, value) :: members => (stringText key ++ ":" ++ value.compact) :: compactMembers members

end

/-- Texts between brackets, each on a line of its own with the indent
and two blanks; the closing bracket has the indent. -/
def bracketed (opening closing indent : String) (texts : List String) : String :=
  if texts.isEmpty then opening ++ closing
  else
    opening ++ "\n" ++ ",\n".intercalate (texts.map (indent ++ "  " ++ ·))
      ++ "\n" ++ indent ++ closing

mutual

/-- A value over several lines, of which all but the first have the
indent. -/
def indented (indent : String) : JsonValue → String
  | array items => bracketed "[" "]" indent (indentedItems (indent ++ "  ") items)
  | object members =>
    bracketed "\x7b" "\x7d" indent (indentedMembers (indent ++ "  ") members)
  | atom => atom.atomText

/-- The items of an array over several lines. -/
def indentedItems (indent : String) : List JsonValue → List String
  | [] => []
  | item :: items => item.indented indent :: indentedItems indent items

/-- The members of an object over several lines. -/
def indentedMembers (indent : String) : List (String × JsonValue) → List String
  | [] => []
  | (key, value) :: members =>
    (stringText key ++ ": " ++ value.indented indent) :: indentedMembers indent members

end

end JsonValue

end SmellCheck

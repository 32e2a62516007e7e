import SmellCheck.Real64.Literal
import SmellCheck.Text.Base64
import SmellCheck.Yaml.Moment
import SmellCheck.Yaml.Node
/-!
# Values of YAML nodes

What a node means follows from what is asked of it: a string takes the
text of any scalar, an integer takes numbers, a truth value takes the
plain words and the old ones, also between quotes. A node that is null
leaves unset what it is asked for. A tag says what a scalar must be; a
mapping may take in the entries of others under a merge key.
-/

namespace SmellCheck.Yaml

/-- Why a text does not give the values that are asked of it. -/
inductive ReadError where
  | fault (fault : Fault)
  | wrongShape
  deriving DecidableEq

/-- A reading of nodes, which knows what aliases stand for. -/
abbrev Read := ReaderT (List (Nat × Node)) (Except ReadError)

/-- The node that an alias stands for; another node stands for itself. -/
def Node.target (n : Node) : Read Node := do
  match n with
  | .alias _ number =>
    match (← read).lookup number with
    | some n => return n
    | none => throw .wrongShape
  | n => return n

/-! ## Numbers -/

/-- Digits, at least `least` of them, and the rest. -/
def takeDecimals? (least : Nat) (cs : List Char) : Option (List Char) :=
  let digits := cs.takeWhile Char.isDigit
  if least ≤ digits.length then some (cs.drop digits.length) else none

/-- The text is a decimal number with an optional sign, point and
exponent. -/
def isDecimalNumber (cs : List Char) : Bool :=
  let mantissa := match (Text.takeSign cs).2 with
    | '.' :: rest => takeDecimals? 1 rest
    | rest =>
      match takeDecimals? 1 rest with
      | some ('.' :: rest) => takeDecimals? 0 rest
      | other => other
  match mantissa with
  | none => false
  | some [] => true
  | some (c :: rest) =>
    Text.sameLetter 'e' c && takeDecimals? 1 (Text.takeSign rest).2 == some []

/-- The number that a plain scalar of infinity or none stands for. -/
def specialReal? (s : String) : Option Real64 :=
  if [".nan", ".NaN", ".NAN"].contains s then some .nan
  else if [".inf", ".Inf", ".INF", "+.inf", "+.Inf", "+.INF"].contains s then
    some (.infinite false)
  else if ["-.inf", "-.Inf", "-.INF"].contains s then some (.infinite true)
  else none

/-- The largest integer of 64 bits. -/
def maxInt : Int := 0x7FFFFFFFFFFFFFFF

/-- The smallest integer of 64 bits. -/
def minInt : Int := -0x8000000000000000

/-- The number cut to an integer of 64 bits. What is too small becomes
the smallest one, and so does the power of two right above the largest
one; what is larger has no such integer. -/
def cutToInt? (x : Real64) : Option Int :=
  match x with
  | .nan => none
  | .infinite negative => if negative then some minInt else none
  | .finite _ _ _ =>
    x.truncate?.bind fun i =>
      if maxInt + 1 < i then none
      else if minInt ≤ i ∧ i ≤ maxInt then some i
      else some minInt

/-- What a scalar stands for. -/
inductive Meaning where
  | null
  | bool (b : Bool)
  | int (i : Int)
  | real (x : Real64)
  | moment
  | text (s : String)

/-- The integer of a number that names its base and has its sign behind
the mark of the base. -/
def lateSigned? : List Char → Option Int
  | '0' :: 'b' :: cs => signedIn? 2 cs
  | '-' :: '0' :: 'b' :: cs => Text.int? 2 64 ('-' :: cs)
  | '0' :: 'o' :: cs => signedIn? 8 cs
  | '-' :: '0' :: 'o' :: cs => Text.int? 8 64 ('-' :: cs)
  | _ => none
where
  /-- An integer with a sign, or one of 64 bits without. -/
  signedIn? (base : Nat) (cs : List Char) : Option Int :=
    Text.int? base 64 cs <|>
      ((Text.nat? base cs).filter (· < 0x10000000000000000)).map Int.ofNat

/-- What a scalar that begins like a number stands for. Underscores do not
count. -/
def numberMeaning (s : String) : Meaning :=
  let digits := s.toList.filter (· != '_')
  let integer := Text.intLiteral? 64 digits <|>
    ((Text.natLiteral? digits).filter (· < 0x10000000000000000)).map Int.ofNat
  match integer with
  | some i => .int i
  | none =>
    match if isDecimalNumber digits then Real64.literal? digits else none with
    | some x => .real x
    | none =>
      match lateSigned? digits with
      | some i => .int i
      | none => .text s

/-- The truth value of a plain word. -/
def plainBool? (s : String) : Option Bool :=
  if ["true", "True", "TRUE"].contains s then some true
  else if ["false", "False", "FALSE"].contains s then some false
  else none

/-- A plain scalar that stands for no value. -/
def isNullText (s : String) : Bool :=
  ["", "~", "null", "Null", "NULL"].contains s

/-- What a plain scalar stands for. Moments are told from text only if
they are looked for. -/
def plainMeaning (moments : Bool) (s : String) : Meaning :=
  if isNullText s then .null
  else
    match plainBool? s, specialReal? s, s.toList with
    | some b, _, _ => .bool b
    | none, some x, _ => .real x
    | none, none, '.' :: cs =>
      match Real64.literal? ('.' :: cs) with
      | some x => .real x
      | none => .text s
    | none, none, c :: cs =>
      if c.isDigit || c == '+' || c == '-' then
        if moments && Moment.isMoment (c :: cs) then .moment else numberMeaning s
      else .text s
    | none, none, [] => .text s

/-- What a scalar stands for that must be as its tag says. A tag that is
not known says nothing. -/
def taggedMeaning (tag s : String) : Except ReadError Meaning :=
  match tag, plainMeaning (tag == "!!timestamp") s with
  | "!!str", _ => .ok (.text s)
  | "!!binary", _ =>
    match Text.decodeBase64? s.toList with
    | some bs => .ok (.text (lossyText bs))
    | none => .error .wrongShape
  | "!!null", .null => .ok .null
  | "!!bool", .bool b => .ok (.bool b)
  | "!!int", .int i => .ok (.int i)
  | "!!float", .real x => .ok (.real x)
  | "!!float", .int i =>
    match if Text.fitsWord 64 i then Real64.literal? (Text.decimal i).toList else none with
    | some x => .ok (.real x)
    | none => .error .wrongShape
  | "!!timestamp", .moment => .ok .moment
  | "!!null", _ | "!!bool", _ | "!!int", _ | "!!float", _ | "!!timestamp", _ =>
    .error .wrongShape
  | _, _ => .ok (.text s)

/-- What a scalar stands for. -/
def scalarMeaning (text : String) (plain : Bool) (tag : Option String) : Except ReadError Meaning :=
  match tag with
  | some tag => taggedMeaning tag text
  | none => .ok (if plain then plainMeaning false text else .text text)

/-- What a node stands for that must be a scalar. -/
def Node.meaning (n : Node) : Read Meaning := do
  match ← n.target with
  | .scalar text plain tag => scalarMeaning text plain tag
  | _ => throw .wrongShape

/-- The node stands for no value. -/
def Node.isNull (n : Node) : Read Bool := do
  match ← n.target with
  | .scalar text plain tag =>
    match ← scalarMeaning text plain tag with
    | .null => return true
    | _ => return false
  | _ => return false

/-- The text of a scalar; `none` for null. Text that is written in bytes
is what they encode. -/
def Node.string? (n : Node) : Read (Option String) := do
  match ← n.target with
  | .scalar text plain tag =>
    match ← scalarMeaning text plain tag with
    | .null => return none
    | .text s => return some s
    | _ => return some text
  | _ => throw .wrongShape

/-- The integer of a node; `none` for null. A number is cut to an
integer. -/
def Node.int? (n : Node) : Read (Option Int) := do
  match ← n.meaning with
  | .null => return none
  | .int i => if Text.fitsWord 64 i then return some i else throw .wrongShape
  | .real x =>
    match cutToInt? x with
    | some i => return some i
    | none => throw .wrongShape
  | _ => throw .wrongShape

/-! ## Truth values -/

/-- The truth value of one of the old words. -/
def wordBool? (s : String) : Option Bool :=
  if ["y", "Y", "yes", "Yes", "YES", "on", "On", "ON"].contains s then some true
  else if ["n", "N", "no", "No", "NO", "off", "Off", "OFF"].contains s then some false
  else none

/-- The truth value of a node; `none` for null. -/
def Node.bool? (n : Node) : Read (Option Bool) := do
  match ← n.meaning with
  | .null => return none
  | .bool b => return some b
  | .text s =>
    match wordBool? s with
    | some b => return some b
    | none => throw .wrongShape
  | _ => throw .wrongShape

/-! ## Collections -/

/-- The items of a sequence, without those that are unset. Null is the
empty sequence. -/
def Node.list {α : Type} (item : Node → Read (Option α)) (n : Node) : Read (List α) := do
  match ← n.target with
  | .sequence items => return (← items.mapM item).filterMap id
  | n => if ← n.isNull then return [] else throw .wrongShape

/-- Two keys count as the same: equal text, aliases of one name, or
collections of one kind. -/
def sameKey : Node → Node → Bool
  | .scalar a _ _, .scalar b _ _ => a == b
  | .sequence _, .sequence _ => true
  | .mapping _, .mapping _ => true
  | .alias a _, .alias b _ => a == b
  | _, _ => false

/-- No two keys count as the same. -/
def distinctKeys : List (Node × Node) → Bool
  | [] => true
  | (key, _) :: entries => !(entries.any fun (other, _) => sameKey key other) && distinctKeys entries

/-- The entries of a mapping by the text of their keys: its own ones in
order, and those that it takes in from others, which its own ones come
before. -/
structure Entries where
  own : List (String × Node)
  merged : List (String × Node)

/-- The key takes in the entries of other mappings. -/
def isMergeKey : Node → Bool
  | .scalar "<<" plain tag => tag == some "!!merge" || (plain && tag.isNone)
  | _ => false

/-- The entries with a key that is text, without those whose key is
null. -/
def namedEntries (entries : List (Node × Node)) : Read (List (String × Node)) := do
  let own := entries.filter fun (key, _) => !isMergeKey key
  let named ← own.mapM fun (key, value) => return (← key.string?).map (·, value)
  return named.filterMap id

/-- The entries of a mapping and, for an alias, the number of the mapping;
no aliases may lead back to a mapping that they come from. -/
def mergeSource (seen : List Nat) (n : Node) : Read (List Nat × List (Node × Node)) := do
  match n, ← n.target with
  | .alias _ number, .mapping entries =>
    if seen.contains number then throw .wrongShape else return (number :: seen, entries)
  | _, .mapping entries => return (seen, entries)
  | _, _ => throw .wrongShape

/-- The mappings whose entries the value of a merge key takes in: one, or
the items of a sequence. -/
def mergeSources (seen : List Nat) (n : Node) : Read (List (List Nat × List (Node × Node))) := do
  match n with
  | .sequence items => items.mapM (mergeSource seen)
  | n => return [← mergeSource seen n]

/-- The entries that a mapping takes in, and those that these take in. -/
def mergedEntries : (fuel : Nat) → List Nat → List (Node × Node) → Read (List (String × Node))
  | 0, _, _ => throw .wrongShape
  | fuel + 1, seen, entries => do
    match entries.find? fun (key, _) => isMergeKey key with
    | none => return []
    | some (_, value) =>
      let parts ← (← mergeSources seen value).mapM fun (seen, entries) => do
        if !distinctKeys entries then throw .wrongShape
        return (← namedEntries entries) ++ (← mergedEntries fuel seen entries)
      return parts.flatten

/-- How far merge keys inside of merged mappings are followed. -/
def mergeDepth : Nat := 10000

/-- The entries of a mapping; `none` for null. -/
def Node.entries? (n : Node) : Read (Option Entries) := do
  match ← n.target with
  | .mapping entries =>
    if !distinctKeys entries then throw .wrongShape
    let own ← namedEntries entries
    return some { own, merged := ← mergedEntries mergeDepth [] entries }
  | n => if ← n.isNull then return none else throw .wrongShape

/-- The value of a key that may be given once, first among the entries of
the mapping itself and then among those that it takes in. -/
def Entries.find? (es : Entries) (name : String) : Read (Option Node) :=
  match es.own.filter (·.1 == name) with
  | [] => return es.merged.lookup name
  | [(_, n)] => return some n
  | _ => throw .wrongShape

/-- The value of a field, or the given one if the field is missing or
unset. -/
def field {α : Type} (es : Entries) (name : String) (unset : α) (value : Node → Read (Option α)) :
    Read α := do
  match ← es.find? name with
  | none => return unset
  | some n => return (← value n).getD unset

/-- The items of a field, none if the field is missing. -/
def listField {α : Type} (es : Entries) (name : String) (item : Node → Read (Option α)) :
    Read (List α) := do
  match ← es.find? name with
  | none => return []
  | some n => n.list item

/-- The first document of a text; null if there is none. -/
def readDocument (source : String) : Except ReadError Document :=
  match Document.read source with
  | .ok d => .ok (d.getD { root := .empty })
  | .error fault => .error (.fault fault)

/-- What a reading makes of the root of a document. -/
def Document.get {α : Type} (d : Document) (value : Node → Read α) : Except ReadError α :=
  (value d.root).run d.anchored

end SmellCheck.Yaml

import SmellCheck.Text.Utf8
/-!
# Bytes written in 64 characters

Three bytes are written as four characters of six bits each. A last group
of one or two bytes is filled up with equals signs. Line breaks inside of
such a text do not count.
-/

namespace SmellCheck.Text

/-- The six bits that a character stands for. -/
def sextet? (c : Char) : Option Nat :=
  if 'A' ≤ c ∧ c ≤ 'Z' then some (c.toNat - 'A'.toNat)
  else if 'a' ≤ c ∧ c ≤ 'z' then some (c.toNat - 'a'.toNat + 26)
  else if '0' ≤ c ∧ c ≤ '9' then some (c.toNat - '0'.toNat + 52)
  else if c = '+' then some 62
  else if c = '/' then some 63
  else none

/-- The first bytes of the 24 bits of a group. -/
def groupBytes (count bits : Nat) : Bytes :=
  [bits / 65536, bits / 256 % 256, bits % 256].take count |>.map Nat.toUInt8

/-- The bytes of groups of four characters. -/
def decodeGroups? : List Char → Option Bytes
  | [] => some []
  | [a, b, '=', '='] => do
    return groupBytes 1 ((← sextet? a) * 262144 + (← sextet? b) * 4096)
  | [a, b, c, '='] => do
    return groupBytes 2 ((← sextet? a) * 262144 + (← sextet? b) * 4096 + (← sextet? c) * 64)
  | a :: b :: c :: d :: rest => do
    let bits := (← sextet? a) * 262144 + (← sextet? b) * 4096 + (← sextet? c) * 64 + (← sextet? d)
    return groupBytes 3 bits ++ (← decodeGroups? rest)
  | _ => none

/-- The bytes that a text stands for. -/
def decodeBase64? (cs : List Char) : Option Bytes :=
  decodeGroups? (cs.filter fun c => c != '\n' && c != '\r')

end SmellCheck.Text

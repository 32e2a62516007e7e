/-!
# Text as bytes

Texts are encoded in UTF-8. A byte string need not be such an encoding:
decoding it gives, in order, the characters that it encodes and the bytes
that belong to none.
-/

namespace SmellCheck

/-- A string of bytes. -/
abbrev Bytes := List UInt8

namespace Text

/-- The UTF-8 encoding of a text. -/
def encodeUtf8 (cs : List Char) : Bytes :=
  cs.flatMap String.utf8EncodeChar

/-- A piece of a byte string: an encoded character, or a byte that is
part of none. -/
inductive Piece where
  | char (c : Char)
  | stray (b : UInt8)
  deriving DecidableEq

/-- The byte continues a character. -/
def isContinuation (b : UInt8) : Bool :=
  0x80 ≤ b && b < 0xC0

/-- What a leading byte announces: how many continuations follow, the
bits that it holds itself, and the least character that needs so many
bytes. -/
def lead? (b : UInt8) : Option (Nat × Nat × Nat) :=
  if b < 0x80 then some (0, b.toNat, 0)
  else if b < 0xC0 then none
  else if b < 0xE0 then some (1, b.toNat % 32, 0x80)
  else if b < 0xF0 then some (2, b.toNat % 16, 0x800)
  else if b < 0xF8 then some (3, b.toNat % 8, 0x10000)
  else none

/-- Adds six bits from each of `k` continuations to the bits in front. -/
def continue? : (k bits : Nat) → Bytes → Option (Nat × Bytes)
  | 0, bits, bs => some (bits, bs)
  | _ + 1, _, [] => none
  | k + 1, bits, b :: bs =>
    if isContinuation b then continue? k (bits * 64 + b.toNat % 64) bs else none

/-- The character that the bytes begin with, and the rest. A longer
encoding than the character needs is no encoding. -/
def decodeChar? : Bytes → Option (Char × Bytes)
  | [] => none
  | b :: bs =>
    match lead? b with
    | none => none
    | some (k, bits, least) =>
      match continue? k bits bs with
      | none => none
      | some (n, rest) =>
        if least ≤ n ∧ n.isValidChar then some (Char.ofNat n, rest) else none

theorem continue?_length_le {k bits n : Nat} {bs rest : Bytes}
    (h : continue? k bits bs = some (n, rest)) : rest.length ≤ bs.length := by
  fun_induction continue? k bits bs with
  | case1 bits bs => simp_all
  | case2 => simp at h
  | case3 k bits b bs hb ih => exact Nat.le_succ_of_le (ih h)
  | case4 => simp at h

theorem decodeChar?_length_lt {bs rest : Bytes} {c : Char}
    (h : decodeChar? bs = some (c, rest)) : rest.length < bs.length := by
  fun_cases decodeChar? bs with
  | case1 => simp [decodeChar?] at h
  | case2 b bs hb => simp [decodeChar?, hb] at h
  | case3 b bs k bits least hb hc => simp [decodeChar?, hb, hc] at h
  | case4 b bs k bits least hb n more hc hn =>
    simp only [decodeChar?, hb, hc, hn, and_self, if_true, Option.some.injEq, Prod.mk.injEq] at h
    obtain ⟨_, rfl⟩ := h
    have := continue?_length_le hc
    simp only [List.length_cons]
    omega
  | case5 b bs k bits least hb n more hc hn =>
    simp [decodeChar?, hb, hc, hn] at h

/-- The pieces of a byte string, in order. -/
def pieces : Bytes → List Piece
  | [] => []
  | b :: bs =>
    match h : decodeChar? (b :: bs) with
    | some (c, rest) =>
      have := decodeChar?_length_lt h
      .char c :: pieces rest
    | none => .stray b :: pieces bs
termination_by bs => bs.length
decreasing_by
  · exact this
  · exact Nat.lt_succ_self bs.length

/-- The text that the bytes encode, if every byte belongs to a character. -/
def decodeUtf8? (bs : Bytes) : Option (List Char) :=
  (pieces bs).mapM fun
    | .char c => some c
    | .stray _ => none

end Text

end SmellCheck

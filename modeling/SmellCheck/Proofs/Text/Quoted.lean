import SmellCheck.Text.Quoted
import SmellCheck.Proofs.Text.Numeral
/-!
# Quoting and unquoting

A quoted byte string is unquoted to itself, whatever its bytes are
(`unquote?_quoteBytes`). The pieces of a byte string make it up again:
what is decoded is the encoding of the character that it gives, and what
is not stays a stray byte. Each piece is quoted so that it is unquoted to
its own bytes, in front of any text.
-/

namespace SmellCheck.Text

/-! ## Characters as bytes -/

/-- The bytes that continue a character. -/
theorem exists_of_continue? {k bits n : Nat} {bs rest : Bytes}
    (h : continue? k bits bs = some (n, rest)) :
    ∃ cs : Bytes, bs = cs ++ rest ∧ cs.length = k ∧ (∀ b ∈ cs, isContinuation b = true) ∧
      n = cs.foldl (fun bits b => bits * 64 + b.toNat % 64) bits := by
  fun_induction continue? k bits bs with
  | case1 bits bs =>
    cases h
    exact ⟨[], rfl, rfl, fun _ hb => absurd hb List.not_mem_nil, rfl⟩
  | case2 => cases h
  | case3 k bits b bs hb ih =>
    obtain ⟨cs, rfl, hlen, hcs, hn⟩ := ih h
    refine ⟨b :: cs, rfl, by rw [List.length_cons, hlen], ?_, hn⟩
    exact List.forall_mem_cons.2 ⟨hb, hcs⟩
  | case4 => cases h

theorem toNat_of_isContinuation {b : UInt8} (h : isContinuation b = true) :
    128 ≤ b.toNat ∧ b.toNat < 192 := by
  simpa [isContinuation, UInt8.le_iff_toNat_le, UInt8.lt_iff_toNat_lt] using h

/-- What a leading byte announces is what it holds. -/
theorem of_lead? {b : UInt8} {k bits least : Nat} (h : lead? b = some (k, bits, least)) :
    (k = 0 ∧ bits = b.toNat ∧ b.toNat < 128) ∨
    (k = 1 ∧ b.toNat = 192 + bits ∧ bits < 32 ∧ least = 0x80) ∨
    (k = 2 ∧ b.toNat = 224 + bits ∧ bits < 16 ∧ least = 0x800) ∨
    (k = 3 ∧ b.toNat = 240 + bits ∧ bits < 8 ∧ least = 0x10000) := by
  simp only [lead?, UInt8.lt_iff_toNat_lt] at h
  have h80 : (0x80 : UInt8).toNat = 128 := rfl
  have hC0 : (0xC0 : UInt8).toNat = 192 := rfl
  have hE0 : (0xE0 : UInt8).toNat = 224 := rfl
  have hF0 : (0xF0 : UInt8).toNat = 240 := rfl
  have hF8 : (0xF8 : UInt8).toNat = 248 := rfl
  rw [h80, hC0, hE0, hF0, hF8] at h
  split at h
  · cases h
    omega
  split at h
  · cases h
  split at h
  · cases h
    omega
  split at h
  · cases h
    omega
  split at h
  · cases h
    omega
  · cases h

theorem ofNat_eq_of_toNat {b : UInt8} {n : Nat} (h : n = b.toNat) : UInt8.ofNat n = b := by
  rw [h, UInt8.ofNat_toNat]

/-- **A character that is decoded is encoded by the bytes it came from.** -/
theorem eq_of_decodeChar? {bs rest : Bytes} {c : Char} (h : decodeChar? bs = some (c, rest)) :
    bs = String.utf8EncodeChar c ++ rest := by
  cases bs with
  | nil => cases h
  | cons b bs =>
    rw [decodeChar?] at h
    split at h
    · cases h
    rename_i k bits least hlead
    split at h
    · cases h
    rename_i n more hcontinue
    split at h
    · rename_i hn
      cases h
      have hvalue : (Char.ofNat n).val.toNat = n := by
        rw [Char.ofNat, dif_pos hn.2]
        rfl
      obtain ⟨cs, rfl, hlen, hcs, hbits⟩ := exists_of_continue? hcontinue
      simp only [String.utf8EncodeChar, hvalue]
      rcases of_lead? hlead with ⟨rfl, hb⟩ | ⟨rfl, hb⟩ | ⟨rfl, hb⟩ | ⟨rfl, hb⟩
      · obtain rfl := List.length_eq_zero_iff.1 hlen
        simp only [List.foldl_nil] at hbits
        have hle : n ≤ 127 := by omega
        rw [if_pos hle, ofNat_eq_of_toNat (b := b) (by omega)]
        rfl
      · obtain ⟨c₁, rfl⟩ := List.length_eq_one_iff.1 hlen
        have h₁ := toNat_of_isContinuation (hcs c₁ (by simp))
        simp only [List.foldl_cons, List.foldl_nil] at hbits
        have hgt : ¬ n ≤ 127 := by omega
        have hle : n ≤ 2047 := by omega
        rw [if_neg hgt, if_pos hle, ofNat_eq_of_toNat (b := b) (by omega),
          ofNat_eq_of_toNat (b := c₁) (by omega)]
        rfl
      · obtain ⟨c₁, c₂, rfl⟩ := List.length_eq_two.1 hlen
        have h₁ := toNat_of_isContinuation (hcs c₁ (by simp))
        have h₂ := toNat_of_isContinuation (hcs c₂ (by simp))
        simp only [List.foldl_cons, List.foldl_nil] at hbits
        have hgt : ¬ n ≤ 127 := by omega
        have hgt' : ¬ n ≤ 2047 := by omega
        have hle : n ≤ 65535 := by omega
        rw [if_neg hgt, if_neg hgt', if_pos hle, ofNat_eq_of_toNat (b := b) (by omega),
          ofNat_eq_of_toNat (b := c₁) (by omega), ofNat_eq_of_toNat (b := c₂) (by omega)]
        rfl
      · obtain ⟨c₁, c₂, c₃, rfl⟩ := List.length_eq_three.1 hlen
        have h₁ := toNat_of_isContinuation (hcs c₁ (by simp))
        have h₂ := toNat_of_isContinuation (hcs c₂ (by simp))
        have h₃ := toNat_of_isContinuation (hcs c₃ (by simp))
        simp only [List.foldl_cons, List.foldl_nil] at hbits
        have hgt : ¬ n ≤ 127 := by omega
        have hgt' : ¬ n ≤ 2047 := by omega
        have hgt'' : ¬ n ≤ 65535 := by omega
        rw [if_neg hgt, if_neg hgt', if_neg hgt'', ofNat_eq_of_toNat (b := b) (by omega),
          ofNat_eq_of_toNat (b := c₁) (by omega), ofNat_eq_of_toNat (b := c₂) (by omega),
          ofNat_eq_of_toNat (b := c₃) (by omega)]
        rfl
    · cases h

/-- The bytes of a piece. -/
def Piece.bytes : Piece → Bytes
  | .char c => String.utf8EncodeChar c
  | .stray b => [b]

/-- **The pieces make up the byte string.** -/
theorem flatMap_bytes_pieces (bs : Bytes) : (pieces bs).flatMap Piece.bytes = bs := by
  fun_induction pieces bs with
  | case1 => rfl
  | case2 b bs c rest h _ ih =>
    rw [List.flatMap_cons, ih, eq_of_decodeChar? h]
    rfl
  | case3 b bs h ih =>
    rw [List.flatMap_cons, ih]
    rfl

/-! ## Escapes -/

/-- A fixed number of digits is read off the front. -/
theorem takeDigits?_append {base k acc : Nat} {ds rest : List Char} (h : ds.length = k) :
    takeDigits? base k acc (ds ++ rest) = (digitsFrom? base acc ds).map (·, rest) := by
  induction ds generalizing k acc with
  | nil =>
    cases h
    rfl
  | cons d ds ih =>
    obtain rfl : k = ds.length + 1 := h.symm
    rw [List.cons_append, takeDigits?, digitsFrom?]
    cases digitIn? base d with
    | none => rfl
    | some v => exact ih rfl

/-- **The digits of an escape are read back.** -/
theorem takeDigits?_padZeros {width n : Nat} (hwidth : 0 < width) (h : n < Nat.pow 16 width)
    (rest : List Char) :
    takeDigits? 16 width 0 (padZeros width (hexDigits n) ++ rest) = some (n, rest) := by
  have hlen := length_padZeros hwidth h
  have hvalue : digitsFrom? 16 0 (padZeros width (hexDigits n)) = some n := by
    have := nat?_padZeros width n
    rw [nat?] at this
    split at this
    · cases this
    · exact this
  rw [takeDigits?_append hlen, hvalue]
  rfl

/-- The characters that are escaped by a letter, with their letters. -/
def letterEscapes : List (Char × Char) :=
  [('\x07', 'a'), ('\x08', 'b'), ('\x0C', 'f'), ('\n', 'n'), ('\r', 'r'), ('\t', 't'),
    ('\x0B', 'v'), ('\\', '\\'), ('"', '"')]

theorem mem_of_escapeLetter? {c letter : Char} (h : escapeLetter? c = some letter) :
    (c, letter) ∈ letterEscapes := by
  have hc : c = Char.ofNat c.toNat := (Char.ofNat_toNat c).symm
  rw [escapeLetter?] at h
  split at h <;> cases h <;> rename_i hn <;> rw [hn] at hc <;> subst hc <;> decide

/-- A hexadecimal escape of a character gives its bytes. -/
theorem encodeNumber?_toNat (c : Char) :
    encodeNumber? c.toNat = some (String.utf8EncodeChar c) := by
  have hvalid : c.toNat.isValidChar := c.valid
  rw [encodeNumber?, if_pos hvalid, Char.ofNat_toNat]

theorem toNat_lt (c : Char) : c.toNat < Nat.pow 16 8 :=
  c.val.toNat_lt

theorem byte?_toNat (b : UInt8) : byte? b.toNat = some [b] := by
  have hle : b.toNat ≤ 255 := Nat.le_of_lt_succ b.toNat_lt
  rw [byte?, if_pos hle, UInt8.ofNat_toNat]

/-- A stray byte is unquoted to itself. -/
theorem unquoteChar?_hexEscape_byte (b : UInt8) (rest : List Char) :
    unquoteChar? '"' (hexEscape 'x' 2 b.toNat ++ rest) = some ([b], rest) := by
  have hdigits := takeDigits?_padZeros (by decide : 0 < 2) b.toNat_lt rest
  simp [unquoteChar?, hexEscape, unescape?, escapedControl?, hdigits, byte?_toNat]

/-- **A quoted character is unquoted to its bytes.** -/
theorem unquoteChar?_quoteChar (c : Char) (rest : List Char) :
    unquoteChar? '"' (quoteChar c ++ rest) = some (String.utf8EncodeChar c, rest) := by
  rw [quoteChar]
  split
  · rename_i letter hletter
    have hmem := mem_of_escapeLetter? hletter
    simp only [letterEscapes, List.mem_cons, List.not_mem_nil, Prod.mk.injEq, or_false] at hmem
    rcases hmem with ⟨rfl, rfl⟩ | ⟨rfl, rfl⟩ | ⟨rfl, rfl⟩ | ⟨rfl, rfl⟩ | ⟨rfl, rfl⟩ |
      ⟨rfl, rfl⟩ | ⟨rfl, rfl⟩ | ⟨rfl, rfl⟩ | ⟨rfl, rfl⟩ <;> rfl
  rename_i hletter
  split
  · -- A printable character that no letter escapes stands for itself.
    have hmark : c ≠ '"' ∧ c ≠ '\n' ∧ c ≠ '\\' := by
      refine ⟨?_, ?_, ?_⟩ <;> rintro rfl <;> cases hletter
    simp [unquoteChar?, hmark]
  split
  · rename_i hsmall
    have hbyte := unquoteChar?_hexEscape_byte (UInt8.ofNat c.toNat) rest
    have hnat : (UInt8.ofNat c.toNat).toNat = c.toNat :=
      UInt8.toNat_ofNat_of_lt' (Nat.lt_trans hsmall (by decide))
    rw [hnat] at hbyte
    rw [hbyte, String.utf8EncodeChar, if_pos (by exact Nat.le_of_lt_succ hsmall)]
    rfl
  split
  · rename_i hless
    have hdigits := takeDigits?_padZeros (by decide : 0 < 4) hless rest
    simp [unquoteChar?, hexEscape, unescape?, escapedControl?, hdigits, encodeNumber?_toNat]
  · have hdigits := takeDigits?_padZeros (by decide : 0 < 8) (toNat_lt c) rest
    simp [unquoteChar?, hexEscape, unescape?, escapedControl?, hdigits, encodeNumber?_toNat]

theorem unquoteChar?_quotePiece (p : Piece) (rest : List Char) :
    unquoteChar? '"' (quotePiece p ++ rest) = some (p.bytes, rest) := by
  cases p with
  | char c => exact unquoteChar?_quoteChar c rest
  | stray b => exact unquoteChar?_hexEscape_byte b rest

/-- A piece is quoted by a letter behind a backslash, by itself, or by
its number. -/
theorem quotePiece_cases (p : Piece) :
    (∃ letter, quotePiece p = ['\\', letter] ∧ letter ≠ '\n') ∨
    (∃ c, quotePiece p = [c] ∧ c ≠ '"' ∧ c ≠ '\\' ∧ c ≠ '\n') ∨
    ∃ mark width n, quotePiece p = hexEscape mark width n ∧ mark ≠ '\n' := by
  cases p with
  | stray b => exact .inr (.inr ⟨'x', 2, b.toNat, rfl, by decide⟩)
  | char c =>
    simp only [quotePiece, quoteChar]
    split
    · rename_i letter hletter
      have table : ∀ escape ∈ letterEscapes, escape.2 ≠ '\n' := by decide
      exact .inl ⟨letter, rfl, table _ (mem_of_escapeLetter? hletter)⟩
    rename_i hletter
    split
    · refine .inr (.inl ⟨c, rfl, ?_, ?_, ?_⟩) <;> rintro rfl <;> cases hletter
    split
    · exact .inr (.inr ⟨'x', 2, c.toNat, rfl, by decide⟩)
    split
    · exact .inr (.inr ⟨'u', 4, c.toNat, rfl, by decide⟩)
    · exact .inr (.inr ⟨'U', 8, c.toNat, rfl, by decide⟩)

/-! ## Literals -/

/-- A literal stays on its line. -/
theorem newline_notMem_quoteBytes (bs : Bytes) : '\n' ∉ quoteBytes bs := by
  have hpiece : ∀ p, '\n' ∉ quotePiece p := by
    intro p
    rcases quotePiece_cases p with
      ⟨letter, h, hletter⟩ | ⟨c, h, -, -, hc⟩ | ⟨mark, width, n, h, hmark⟩
    · simp [h, hletter.symm]
    · simp [h, hc.symm]
    · have hdigits : '\n' ∉ padZeros width (hexDigits n) := fun hmem =>
        absurd (mem_of_mem_padZeros hmem) (by decide)
      simp [h, hexEscape, hmark.symm, hdigits]
  simp [quoteBytes, hpiece]

/-- No character is quoted by a closing quote alone. -/
theorem quotePiece_append_ne (p : Piece) (rest : List Char) :
    quotePiece p ++ rest ≠ ['"'] := by
  intro heq
  have h := unquoteChar?_quotePiece p rest
  rw [heq] at h
  cases h

theorem unquoteRest?_quotePieces (ps : List Piece) :
    unquoteRest? (ps.flatMap quotePiece ++ ['"']) = some (ps.flatMap Piece.bytes) := by
  induction ps with
  | nil =>
    rw [unquoteRest?]
    rfl
  | cons p ps ih =>
    rw [List.flatMap_cons, List.append_assoc, unquoteRest?,
      if_neg (quotePiece_append_ne p _)]
    split
    · rename_i bs rest h
      rw [unquoteChar?_quotePiece] at h
      cases h
      rw [ih]
      rfl
    · rename_i h
      rw [unquoteChar?_quotePiece] at h
      cases h

/-- **A quoted byte string is unquoted to itself.** -/
theorem unquote?_quoteBytes (bs : Bytes) : unquote? (quoteBytes bs) = some bs := by
  rw [quoteBytes]
  exact (unquoteRest?_quotePieces (pieces bs)).trans (congrArg some (flatMap_bytes_pieces bs))

end SmellCheck.Text

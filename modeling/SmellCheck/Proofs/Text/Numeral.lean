import SmellCheck.Proofs.Text.Cutting
import SmellCheck.Text.Numeral
import Mathlib.Data.List.Basic
/-!
# Numerals that are written and read

An integer is read back from its hexadecimal form, with any number of
zeros in front, and from its decimal form. The decimal form is also a
literal of the same value: it does not begin with a zero, unless it is
zero, so it names no base.
-/

namespace SmellCheck.Text

variable {base : Nat}

/-! ## Digits -/

theorem digitsFrom?_append (acc : Nat) (cs ds : List Char) :
    digitsFrom? base acc (cs ++ ds) =
      (digitsFrom? base acc cs).bind fun n => digitsFrom? base n ds := by
  induction cs generalizing acc with
  | nil => rfl
  | cons c cs ih =>
    rw [List.cons_append, digitsFrom?, digitsFrom?]
    cases digitIn? base c with
    | none => rfl
    | some d => exact ih _

/-- What has a value is made up of digits. -/
theorem isSome_of_digitsFrom? {acc n : Nat} {cs : List Char}
    (h : digitsFrom? base acc cs = some n) : ∀ c ∈ cs, (digitIn? base c).isSome = true := by
  induction cs generalizing acc with
  | nil => exact List.forall_mem_nil _
  | cons c cs ih =>
    obtain ⟨d, hd, hrest⟩ := Option.bind_eq_some_iff.1 h
    exact List.forall_mem_cons.2 ⟨Option.isSome_of_eq_some hd, ih hrest⟩

/-- A digit of a base up to sixteen is read back. -/
theorem digitIn?_digitChar (hbase : base ≤ 16) {d : Nat} (h : d < base) :
    digitIn? base (Nat.digitChar d) = some d := by
  have table : ∀ d < 16, digitValue? (Nat.digitChar d) = some d := by decide
  rw [digitIn?, table d (by omega)]
  simp [h]

/-- Zeros in front do not count. -/
theorem digitsFrom?_zeros (hbase : 0 < base) (k : Nat) (cs : List Char) :
    digitsFrom? base 0 (List.replicate k '0' ++ cs) = digitsFrom? base 0 cs := by
  have hzero : digitIn? base '0' = some 0 := by
    rw [digitIn?, show digitValue? '0' = some 0 from rfl]
    simp [hbase]
  induction k with
  | zero => rfl
  | succ k ih =>
    rw [List.replicate_succ, List.cons_append, digitsFrom?, hzero, Option.bind_some, Nat.zero_mul]
    exact ih

/-- **Digits are read back**, in a base up to sixteen. -/
theorem digitsFrom?_toDigits (hbase : 1 < base) (hbase' : base ≤ 16) (n : Nat) :
    digitsFrom? base 0 (Nat.toDigits base n) = some n := by
  induction n using Nat.strongRecOn with
  | ind n ih =>
    by_cases hn : n < base
    · rw [Nat.toDigits_of_lt_base hn]
      simp [digitsFrom?, digitIn?_digitChar hbase' hn]
    · have hdigit : n % base < base := Nat.mod_lt n (by omega)
      have hless : n / base < n := Nat.div_lt_self (by omega) hbase
      rw [Nat.toDigits_of_base_le hbase (by omega), digitsFrom?_append, ih (n / base) hless,
        Option.bind_some]
      simp only [digitsFrom?, digitIn?_digitChar hbase' hdigit, Option.bind_some,
        Option.some.injEq]
      exact Nat.div_add_mod' n base

/-- The characters of digits. -/
theorem exists_of_mem_toDigits (hbase : 1 < base) {n : Nat} {c : Char}
    (h : c ∈ Nat.toDigits base n) : ∃ d < base, c = Nat.digitChar d := by
  induction n using Nat.strongRecOn with
  | ind n ih =>
    by_cases hn : n < base
    · rw [Nat.toDigits_of_lt_base hn] at h
      exact ⟨n, hn, List.mem_singleton.1 h⟩
    · rw [Nat.toDigits_of_base_le hbase (by omega)] at h
      rcases List.mem_append.1 h with h | h
      · exact ih (n / base) (Nat.div_lt_self (by omega) hbase) h
      · exact ⟨n % base, Nat.mod_lt n (by omega), List.mem_singleton.1 h⟩

/-- Digits of a number other than zero do not begin with a zero. -/
theorem head?_toDigits_ne (hbase : 1 < base) (hbase' : base ≤ 16) {n : Nat} (hn : n ≠ 0) :
    (Nat.toDigits base n).head? ≠ some '0' := by
  have table : ∀ d < 16, d ≠ 0 → Nat.digitChar d ≠ '0' := by decide
  induction n using Nat.strongRecOn with
  | ind n ih =>
    by_cases hlt : n < base
    · rw [Nat.toDigits_of_lt_base hlt, List.head?_cons]
      exact fun h => table n (by omega) hn (Option.some.inj h)
    · have hpos : 0 < n / base := Nat.div_pos (by omega) (by omega)
      rw [Nat.toDigits_of_base_le hbase (by omega),
        List.head?_append_of_ne_nil _ (Nat.toDigits_ne_nil)]
      exact ih (n / base) (Nat.div_lt_self (by omega) hbase) (by omega)

theorem hexDigits_eq (n : Nat) : hexDigits n = Nat.toDigits 16 n := by
  have table : ∀ d < 16, hexDigit d = Nat.digitChar d := by decide
  induction n using Nat.strongRecOn with
  | ind n ih =>
    rw [hexDigits]
    split
    · rename_i hn
      rw [Nat.toDigits_of_lt_base hn, table n hn]
    · rename_i hn
      rw [Nat.toDigits_of_base_le (by omega) (by omega), ih (n / 16) (by omega),
        table _ (Nat.mod_lt n (by omega))]

/-! ## Signs -/

/-- The value of an optionally signed numeral, of any size. -/
def signed? (base : Nat) (cs : List Char) : Option Int :=
  (nat? base (takeSign cs).2).map (withSign (takeSign cs).1)

theorem int?_eq (base bits : Nat) (cs : List Char) :
    int? base bits cs = (signed? base cs).filter (fitsWord bits) := rfl

theorem fitsWord_32_iff {i : Int} :
    fitsWord 32 i = true ↔ -0x80000000 ≤ i ∧ i ≤ 0x7fffffff := by
  simp only [fitsWord, Bool.and_eq_true, decide_eq_true_eq]
  change i < 0x80000000 ∧ -0x80000000 ≤ i ↔ _
  omega

/-- What begins with neither sign has none. -/
theorem takeSign_of_forall {cs : List Char} (h : ∀ c ∈ cs, c ≠ '+' ∧ c ≠ '-') :
    takeSign cs = (false, cs) := by
  unfold takeSign
  split
  · exact absurd rfl (h '+' List.mem_cons_self).1
  · exact absurd rfl (h '-' List.mem_cons_self).2
  · rfl

/-- The characters of signed hexadecimal numerals. -/
def hexAlphabet : List Char :=
  "+-0123456789abcdefABCDEF".toList

theorem mem_hexAlphabet_of_digitIn? {c : Char} (h : (digitIn? 16 c).isSome = true) :
    c ∈ hexAlphabet := by
  have table : ∀ n < 128, (digitIn? 16 (Char.ofNat n)).isSome = true →
      Char.ofNat n ∈ hexAlphabet := by decide
  have hsmall : c.toNat < 128 := by
    by_contra hlarge
    have hgt : ∀ d : Char, d.toNat < 128 → ¬ c ≤ d := fun d hd hle =>
      hlarge (Nat.lt_of_le_of_lt hle hd)
    have hnone : digitValue? c = none := by
      simp [digitValue?, hgt '9' (by decide), hgt 'z' (by decide), hgt 'Z' (by decide)]
    rw [digitIn?, hnone] at h
    cases h
  have hmem := table c.toNat hsmall
  rw [Char.ofNat_toNat] at hmem
  exact hmem h

/-- A signed numeral that has a value is made up of them. -/
theorem subset_hexAlphabet_of_signed? {cs : List Char} {i : Int} (h : signed? 16 cs = some i) :
    cs ⊆ hexAlphabet := by
  obtain ⟨n, hn, -⟩ := Option.map_eq_some_iff.1 h
  have hdigits : (takeSign cs).2 ⊆ hexAlphabet := by
    rw [nat?] at hn
    split at hn
    · cases hn
    · exact fun c hc => mem_hexAlphabet_of_digitIn? (isSome_of_digitsFrom? hn c hc)
  unfold takeSign at hdigits
  split at hdigits
  · exact List.cons_subset.2 ⟨by decide, hdigits⟩
  · exact List.cons_subset.2 ⟨by decide, hdigits⟩
  · exact hdigits

/-- An integer from its sign and its size. -/
theorem withSign_natAbs (i : Int) : withSign (decide (i < 0)) i.natAbs = i := by
  rw [withSign]
  by_cases h : i < 0
  · rw [if_pos (decide_eq_true h)]
    omega
  · rw [if_neg (by simpa using h)]
    omega

theorem nat?_padZeros (width n : Nat) : nat? 16 (padZeros width (hexDigits n)) = some n := by
  have hne : ¬ (padZeros width (hexDigits n)).isEmpty = true := by
    rw [padZeros, hexDigits_eq]
    simp [Nat.toDigits_ne_nil]
  rw [nat?, if_neg hne, padZeros, digitsFrom?_zeros (by omega), hexDigits_eq,
    digitsFrom?_toDigits (by omega) (by omega)]

/-- Each digit takes four bits. -/
theorem length_hexDigits_le {width n : Nat} (hwidth : 0 < width) (h : n < Nat.pow 16 width) :
    (hexDigits n).length ≤ width := by
  induction width generalizing n with
  | zero => exact absurd hwidth (Nat.lt_irrefl 0)
  | succ width ih =>
    rw [hexDigits]
    split
    · exact Nat.succ_le_succ (Nat.zero_le width)
    · rename_i hlarge
      have hquotient : n / 16 < Nat.pow 16 width := by
        rw [Nat.div_lt_iff_lt_mul (by omega)]
        exact h
      have hpos : 0 < width := by
        rcases Nat.eq_zero_or_pos width with rfl | hpos
        · exact absurd h hlarge
        · exact hpos
      rw [List.length_append, List.length_singleton]
      exact Nat.succ_le_succ (ih hpos hquotient)

/-- Digits that fit the width are filled up to it. -/
theorem length_padZeros {width n : Nat} (hwidth : 0 < width) (h : n < Nat.pow 16 width) :
    (padZeros width (hexDigits n)).length = width := by
  rw [padZeros, List.length_append, List.length_replicate]
  exact Nat.sub_add_cancel (length_hexDigits_le hwidth h)

/-- The characters of a hexadecimal form. -/
theorem mem_of_mem_padZeros {width n : Nat} {c : Char} (h : c ∈ padZeros width (hexDigits n)) :
    c ∈ "0123456789abcdef".toList := by
  have table : ∀ d < 16, Nat.digitChar d ∈ "0123456789abcdef".toList := by decide
  rw [padZeros, hexDigits_eq] at h
  rcases List.mem_append.1 h with h | h
  · rw [List.eq_of_mem_replicate h]
    decide
  · obtain ⟨d, hd, rfl⟩ := exists_of_mem_toDigits (by omega) h
    exact table d hd

theorem mem_of_mem_hexInt {width : Nat} {i : Int} {c : Char} (h : c ∈ hexInt width i) :
    c ∈ "-0123456789abcdef".toList := by
  have hlist : "-0123456789abcdef".toList = '-' :: "0123456789abcdef".toList := rfl
  rw [hlist]
  rw [hexInt] at h
  split at h
  · rcases List.mem_cons.1 h with rfl | h
    · exact List.mem_cons_self
    · exact List.mem_cons_of_mem _ (mem_of_mem_padZeros h)
  · exact List.mem_cons_of_mem _ (mem_of_mem_padZeros h)

/-- **A hexadecimal form is read back.** -/
theorem signed?_hexInt (width : Nat) (i : Int) : signed? 16 (hexInt width i) = some i := by
  have table : ∀ c ∈ "0123456789abcdef".toList, c ≠ '+' ∧ c ≠ '-' :=
    forall_mem_of_all (by decide)
  have hvalue := withSign_natAbs i
  rw [signed?, hexInt]
  split
  · rename_i hneg
    rw [decide_eq_true hneg] at hvalue
    rw [takeSign, nat?_padZeros, Option.map_some, hvalue]
  · rename_i hneg
    rw [decide_eq_false hneg] at hvalue
    rw [takeSign_of_forall fun c hc => table c (mem_of_mem_padZeros hc), nat?_padZeros,
      Option.map_some, hvalue]

/-! ## Decimal forms -/

theorem toList_decimal (i : Int) :
    (decimal i).toList = (if i < 0 then ['-'] else []) ++ Nat.toDigits 10 i.natAbs := by
  rw [decimal]
  split
  · rw [String.toList_append, Nat.toList_repr]
    rfl
  · rw [Nat.toList_repr]
    rfl

theorem mem_of_mem_toDigits {n : Nat} {c : Char} (h : c ∈ Nat.toDigits 10 n) :
    c ∈ "0123456789".toList := by
  have table : ∀ d < 10, Nat.digitChar d ∈ "0123456789".toList := by decide
  obtain ⟨d, hd, rfl⟩ := exists_of_mem_toDigits (by omega) h
  exact table d hd

/-- A decimal form is read back, and as a number of slots it is. -/
theorem signed?_repr (n : Nat) : signed? 10 (Nat.toDigits 10 n) = some (n : Int) := by
  have table : ∀ c ∈ "0123456789".toList, c ≠ '+' ∧ c ≠ '-' :=
    forall_mem_of_all (by decide)
  have hne : ¬ (Nat.toDigits 10 n).isEmpty = true := by simp [Nat.toDigits_ne_nil]
  rw [signed?, takeSign_of_forall fun c hc => table c (mem_of_mem_toDigits hc), nat?, if_neg hne,
    digitsFrom?_toDigits (by omega) (by omega)]
  rfl

/-- Digits alone have no underscore out of place. -/
theorem underscoresFitFrom_of_digits {hex : Bool} {last : LastSeen} {cs : List Char}
    (h : ∀ c ∈ cs, c.isDigit = true) (hlast : last ≠ .underscore) :
    underscoresFitFrom hex last cs = true := by
  induction cs generalizing last with
  | nil => simpa [underscoresFitFrom] using hlast
  | cons c cs ih =>
    have hc : isGrouped hex c = true := by rw [isGrouped, h c List.mem_cons_self, Bool.true_or]
    rw [underscoresFitFrom, if_pos hc]
    exact ih (fun d hd => h d (List.mem_cons_of_mem c hd)) (by decide)

/-- A literal that does not begin with a zero is decimal. -/
theorem literalBase_of_head?_ne {cs : List Char} (h : cs.head? ≠ some '0') :
    literalBase cs = (10, cs) ∧ underscoresFitUnsigned cs = underscoresFitFrom false .other cs := by
  constructor
  · unfold literalBase
    split <;> first | rfl | exact absurd rfl h
  · unfold underscoresFitUnsigned
    split
    · exact absurd rfl h
    · rfl

/-- **A decimal form is a literal of its value.** -/
theorem natLiteral?_toDigits (n : Nat) : natLiteral? (Nat.toDigits 10 n) = some n := by
  by_cases hn : n = 0
  · rw [hn]
    rfl
  have table : ∀ c ∈ "0123456789".toList, c.isDigit = true ∧ c ≠ '_' :=
    forall_mem_of_all (by decide)
  have hdigits : ∀ c ∈ Nat.toDigits 10 n, c.isDigit = true ∧ c ≠ '_' :=
    fun c hc => table c (mem_of_mem_toDigits hc)
  obtain ⟨hbase, hfit⟩ :=
    literalBase_of_head?_ne (head?_toDigits_ne (by omega : 1 < 10) (by omega) hn)
  have hunderscores : underscoresFitUnsigned (Nat.toDigits 10 n) = true :=
    hfit.trans (underscoresFitFrom_of_digits (fun c hc => (hdigits c hc).1) (by decide))
  have hfilter : (Nat.toDigits 10 n).filter (· != '_') = Nat.toDigits 10 n :=
    List.filter_eq_self.2 fun c hc => by simpa using (hdigits c hc).2
  have hread : digitsFrom? 10 0 (Nat.toDigits 10 n) = some n :=
    digitsFrom?_toDigits (by omega) (by omega) n
  simp [natLiteral?, hunderscores, hbase, hfilter, hread, Nat.toDigits_ne_nil]

theorem intLiteral?_decimal {bits : Nat} {i : Int} (h : fitsWord bits i = true) :
    intLiteral? bits (decimal i).toList = some i := by
  have table : ∀ c ∈ "0123456789".toList, c ≠ '+' ∧ c ≠ '-' :=
    forall_mem_of_all (by decide)
  have hsign : takeSign (decimal i).toList = (decide (i < 0), Nat.toDigits 10 i.natAbs) := by
    rw [toList_decimal]
    split
    · rename_i hneg
      rw [decide_eq_true hneg]
      rfl
    · rename_i hneg
      rw [decide_eq_false hneg]
      exact takeSign_of_forall fun c hc => table c (mem_of_mem_toDigits hc)
  simp only [intLiteral?, hsign, natLiteral?_toDigits, Option.map_some, withSign_natAbs]
  exact Option.filter_some_pos h

end SmellCheck.Text

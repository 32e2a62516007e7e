import SmellCheck.Bytecode.Listing
import SmellCheck.Proofs.Text.Numeral
/-!
# Labels in front of instructions

A label is the mark `IL_` and a hexadecimal numeral of 32 bits, with
blanks possible between it and its colon. The reader takes such a label
off its line and gives the instruction behind it its value, and takes
nothing off where there is none (`Front.splitLabel`). Where it gives an
offset, the line has a label of that value, or it has none and the offset
is the next one (`offset_of_offsetFor`).
-/

namespace SmellCheck.Listing

open Text

/-- **The label of an offset**, as it may stand in front of a colon. -/
def LabelWritten (label : List Char) (offset : Int) : Prop :=
  ∃ digits gap, label = "IL_".toList ++ digits ++ gap ∧ int? 16 32 digits = some offset ∧ IsGap gap

/-- The line begins with the label of the offset. -/
def LabelledWith (line : List Char) (offset : Int) : Prop :=
  ∃ label rest, line = label ++ ':' :: rest ∧ LabelWritten label offset

/-- The line begins with a label. -/
def HasLabel (line : List Char) : Prop :=
  ∃ offset, LabelledWith line offset

/-- What may stand in front of an instruction on its line, and the offset
that the instruction then has: nothing, and the next offset, or a label
with its colon and blanks. -/
inductive Front (next : Int) : List Char → Int → Prop
  | bare : Front next [] next
  | labelled {label gap : List Char} {offset : Int} (hlabel : LabelWritten label offset)
      (hgap : IsGap gap) : Front next (label ++ ':' :: gap) offset

/-- The mark and the numeral are a word of a few characters. -/
theorem label_subset {digits : List Char} {offset : Int} (h : int? 16 32 digits = some offset) :
    "IL_".toList ++ digits ⊆ "IL_".toList ++ hexAlphabet := by
  rw [int?_eq, Option.filter_eq_some_iff] at h
  exact List.append_subset.2 ⟨List.subset_append_left _ _,
    List.subset_append_of_subset_right _ (subset_hexAlphabet_of_signed? h.1)⟩

theorem isWord_label {digits : List Char} {offset : Int} (h : int? 16 32 digits = some offset) :
    IsWord ("IL_".toList ++ digits) := by
  have halphabet : IsWord ("IL_".toList ++ hexAlphabet) := by decide
  refine ⟨List.append_ne_nil_of_left_ne_nil (by decide) digits, fun c hc => ?_⟩
  exact halphabet.2 c (label_subset h hc)

theorem trim_label {digits gap : List Char} {offset : Int} (h : int? 16 32 digits = some offset)
    (hgap : IsGap gap) : trim ("IL_".toList ++ digits ++ gap) = "IL_".toList ++ digits := by
  have htrim : trim ([] ++ ("IL_".toList ++ digits) ++ gap) = trim ("IL_".toList ++ digits) :=
    trim_append_gap isGap_nil hgap
  rwa [List.nil_append, (isWord_label h).trim_eq] at htrim

namespace LabelWritten

variable {label : List Char} {offset : Int}

/-- Without the blanks, a label is read as its offset. -/
theorem offset?_trim (h : LabelWritten label offset) : offset? (trim label) = some offset := by
  obtain ⟨digits, gap, rfl, hdigits, hgap⟩ := h
  rw [trim_label hdigits hgap, offset?, dropLead_append, hdigits]

theorem isLabel (h : LabelWritten label offset) : Listing.isLabel label = true := by
  obtain ⟨digits, gap, rfl, hdigits, hgap⟩ := h
  have hblank : (("IL_".toList ++ digits).any fun c => c == ' ' || c == '\t') = false := by
    rw [List.any_eq_false]
    intro c hc htest
    have hblank := (isWord_label hdigits).2 c hc
    rcases Bool.or_eq_true_iff.1 htest with hspace | htab
    · rw [eq_of_beq hspace] at hblank
      cases hblank
    · rw [eq_of_beq htab] at hblank
      cases hblank
  rw [Listing.isLabel, trim_label hdigits hgap, startsWith_iff.2 (List.prefix_append _ _), hblank]
  rfl

theorem colon_notMem (h : LabelWritten label offset) : ':' ∉ label := by
  obtain ⟨digits, gap, rfl, hdigits, hgap⟩ := h
  intro hmem
  rcases List.mem_append.1 hmem with hmem | hmem
  · exact absurd (label_subset hdigits hmem) (by decide)
  · exact absurd (hgap _ hmem) (by decide)

theorem fitsWord (h : LabelWritten label offset) : Text.fitsWord 32 offset = true := by
  obtain ⟨digits, gap, -, hdigits, -⟩ := h
  exact (Option.filter_eq_some_iff.1 hdigits).2

end LabelWritten

/-- A label names an offset of 32 bits. -/
theorem LabelledWith.bounds {line : List Char} {offset : Int} (h : LabelledWith line offset) :
    -0x80000000 ≤ offset ∧ offset ≤ 0x7fffffff := by
  obtain ⟨label, rest, -, hlabel⟩ := h
  exact fitsWord_32_iff.1 hlabel.fitsWord

/-! ## The reader -/

/-- **A label is taken off its line.** -/
theorem splitLabel_of_labelWritten {label : List Char} {offset : Int}
    (h : LabelWritten label offset) (rest : List Char) :
    splitLabel (label ++ ':' :: rest) = (some label, trim rest) := by
  rw [splitLabel, cut?_singleton h.colon_notMem]
  simp only [h.isLabel, if_true]

/-- **And gives its value.** -/
theorem offsetFor_of_labelWritten {label : List Char} {offset : Int}
    (h : LabelWritten label offset) (next : Int) : offsetFor next (some label) = .ok offset := by
  rw [offsetFor, h.offset?_trim]

/-- What the reader takes for a label has the mark in front. -/
theorem eq_of_isLabel {label back : List Char} (hline : trim (label ++ back) = label ++ back)
    (h : isLabel label = true) :
    ∃ digits gap, label = "IL_".toList ++ digits ++ gap ∧ IsGap gap ∧
      trim label = "IL_".toList ++ digits := by
  obtain ⟨gap, hgap, heq⟩ := exists_gap_of_trim_append_left hline
  rw [isLabel, Bool.and_eq_true] at h
  obtain ⟨digits, hdigits⟩ := startsWith_iff.1 h.1
  exact ⟨digits, gap, by rw [hdigits]; exact heq, hgap, hdigits.symm⟩

/-- A line that does not begin with the mark is left as it is. -/
theorem splitLabel_eq_none {line : List Char} (hline : trim line = line)
    (h : ¬ "IL_".toList <+: line) : splitLabel line = (none, line) := by
  rw [splitLabel]
  split
  · rename_i label rest hcut
    rw [if_neg fun hlabel => h ?_]
    have heq := eq_of_cut? hcut
    obtain ⟨digits, gap, hmark, -⟩ := eq_of_isLabel (heq ▸ hline) hlabel
    exact ⟨digits ++ gap ++ ([':'] ++ rest), by rw [heq, hmark]; simp⟩
  · rfl

/-- **What stands in front of an instruction is taken off**, and gives its
offset. The instruction does not itself begin as a label. -/
theorem Front.splitLabel {next offset : Int} {front statement : List Char}
    (h : Front next front offset) (htrim : trim statement = statement)
    (hmark : ¬ "IL_".toList <+: statement) :
    offsetFor next (Listing.splitLabel (front ++ statement)).1 = .ok offset ∧
      (Listing.splitLabel (front ++ statement)).2 = statement := by
  cases h with
  | bare =>
    rw [List.nil_append, splitLabel_eq_none htrim hmark]
    exact ⟨rfl, rfl⟩
  | @labelled label gap _ hlabel hgap =>
    have hrest : trim (gap ++ statement ++ []) = trim statement := trim_append_gap hgap isGap_nil
    rw [List.append_nil, htrim] at hrest
    rw [List.append_assoc, List.cons_append, splitLabel_of_labelWritten hlabel]
    exact ⟨offsetFor_of_labelWritten hlabel next, hrest⟩

/-- A label in front makes no directive of a line. -/
theorem Front.after?_directive {next offset : Int} {front statement : List Char}
    (h : Front next front offset) (hdot : statement.head? ≠ some '.') :
    after? ".line".toList (front ++ statement) = none := by
  refine after?_eq_none.2 ?_
  rintro ⟨rest, heq⟩
  have hhead : (front ++ statement).head? = some '.' := by
    rw [← heq]
    rfl
  cases h with
  | bare => exact hdot hhead
  | labelled hlabel =>
    obtain ⟨digits, gap, rfl, -⟩ := hlabel
    cases hhead

/-- What is taken off a line stands in front of its first colon. -/
theorem of_splitLabel_eq_some {line label : List Char} (h : (splitLabel line).1 = some label) :
    isLabel label = true ∧ ∃ rest, line = label ++ ':' :: rest := by
  rw [splitLabel] at h
  split at h
  · rename_i before rest hcut
    split at h
    · rename_i hlabel
      cases h
      exact ⟨hlabel, rest, eq_of_cut? hcut⟩
    · cases h
  · cases h

theorem offset?_of_offsetFor {label : List Char} {next offset : Int}
    (h : offsetFor next (some label) = .ok offset) : offset? (trim label) = some offset := by
  rw [offsetFor] at h
  split at h
  · rename_i value hvalue
    cases h
    exact hvalue
  · cases h

/-- **Where an offset comes from**: from the label of its line, or from
the line before if there is none. -/
theorem offset_of_offsetFor {line : List Char} {next offset : Int} (hline : trim line = line)
    (h : offsetFor next (splitLabel line).1 = .ok offset) :
    LabelledWith line offset ∨ ¬ HasLabel line ∧ offset = next := by
  cases hsplit : (splitLabel line).1 with
  | none =>
    rw [hsplit] at h
    cases h
    refine .inr ⟨?_, rfl⟩
    rintro ⟨value, label, rest, rfl, hlabel⟩
    rw [splitLabel_of_labelWritten hlabel] at hsplit
    cases hsplit
  | some label =>
    rw [hsplit] at h
    have hvalue := offset?_of_offsetFor h
    obtain ⟨hlabel, rest, heq⟩ := of_splitLabel_eq_some hsplit
    obtain ⟨digits, gap, hmark, hgap, htrim⟩ := eq_of_isLabel (heq ▸ hline) hlabel
    rw [offset?, htrim, dropLead_append] at hvalue
    exact .inl ⟨label, rest, heq, digits, gap, hmark, hvalue, hgap⟩

end SmellCheck.Listing

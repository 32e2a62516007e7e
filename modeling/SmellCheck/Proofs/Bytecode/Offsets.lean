import SmellCheck.Proofs.Bytecode.Transcript
/-!
# Offsets and the labels that name them

A label names an offset of 32 bits, but an instruction without a label is
one behind the instruction before, wherever that is. Counting on from the
greatest offset that a label can name leads past it, and stays there up to
the next label. So the label of an instruction is read as its offset
exactly unless it was counted past that offset
(`Body.label_reads_back_unless_countedPast`).
-/

namespace SmellCheck

open Text Listing

namespace Body

variable {source : String} {body : Body}

/-- **The position was counted past the labels**: an instruction in front
of it has the greatest offset that a label can name, and behind that one no
line has a label, up to the position. -/
def CountedPast (source : String) (body : Body) (i : Nat) : Prop :=
  ∃ j < i, ∃ last, body[j]? = some last ∧ last.offset = 0x7fffffff ∧
    ∀ k w, j < k → k ≤ i → (written source)[k]? = some w → ¬ HasLabel w.line

/-- A label begins to count anew. -/
theorem not_countedPast_of_hasLabel {i : Nat} {w : Written} (hw : (written source)[i]? = some w)
    (hlabel : HasLabel w.line) : ¬ CountedPast source body i := by
  rintro ⟨j, hj, last, -, -, hnone⟩
  exact hnone i w hj (Nat.le_refl i) hw hlabel

/-- **One instruction on without a label.** -/
theorem countedPast_succ_iff {i : Nat} {before : Instruction} {w : Written}
    (hbefore : body[i]? = some before) (hw : (written source)[i + 1]? = some w)
    (hlabel : ¬ HasLabel w.line) :
    CountedPast source body (i + 1) ↔
      before.offset = 0x7fffffff ∨ CountedPast source body i := by
  constructor
  · rintro ⟨j, hj, last, hlast, hoffset, hnone⟩
    rcases Nat.lt_or_eq_of_le (Nat.le_of_lt_succ hj) with hlt | rfl
    · exact .inr ⟨j, hlt, last, hlast, hoffset, fun k v hjk hki => hnone k v hjk (by omega)⟩
    · rw [hbefore] at hlast
      cases hlast
      exact .inl hoffset
  · -- the line in question is the only new one
    have extend {j : Nat} (hnone : ∀ k v, j < k → k ≤ i → (written source)[k]? = some v →
        ¬ HasLabel v.line) : ∀ k v, j < k → k ≤ i + 1 → (written source)[k]? = some v →
        ¬ HasLabel v.line := by
      intro k v hjk hki hv
      rcases Nat.lt_or_eq_of_le hki with hlt | rfl
      · exact hnone k v hjk (by omega) hv
      · rw [hw] at hv
        cases hv
        exact hlabel
    rintro (hoffset | ⟨j, hj, last, hlast, hoffset, hnone⟩)
    · exact ⟨i, by omega, before, hbefore, hoffset, extend fun k v hik hki => by omega⟩
    · exact ⟨j, by omega, last, hlast, hoffset, extend hnone⟩

/-- **Where the offset at a position comes from**: from the label of its
line, or from the instruction before. -/
theorem offset_of_read (h : Body.read source = .ok body) {i : Nat} {ins : Instruction}
    (hins : body[i]? = some ins) :
    ∃ w, (written source)[i]? = some w ∧
      (LabelledWith w.line ins.offset ∨ ¬ HasLabel w.line ∧
        (i = 0 ∧ ins.offset = 0 ∨ ∃ j before, i = j + 1 ∧ body[j]? = some before ∧
          ins.offset = before.offset + 1)) := by
  obtain ⟨drafts, -, hnumbered, hbody⟩ := exists_drafts_of_read h
  have hlabelled : Numbered Instruction.offset (fun next w ins =>
      LabelledWith w.line ins.offset ∨ ¬ HasLabel w.line ∧ ins.offset = next) 0
      (written source) body := by
    refine hnumbered.of_forall₂ (fun d ins hresolve => ?_) (fun next w d ins hresolve hd => ?_)
      hbody
    · obtain ⟨operand, -, rfl⟩ := eq_of_resolveDraft hresolve
      rfl
    · obtain ⟨label, text, hd⟩ := hd
      obtain ⟨operand, -, rfl⟩ := eq_of_resolveDraft hresolve
      exact hd.offset_labelled
  obtain ⟨w, hw, ⟨rfl, hfirst⟩ | ⟨j, before, rfl, hbefore, hlater⟩⟩ :=
    hlabelled.exists_getElem? hins
  · exact ⟨w, hw, hfirst.imp_right fun hnone => ⟨hnone.1, .inl ⟨rfl, hnone.2⟩⟩⟩
  · exact ⟨w, hw, hlater.imp_right fun hnone =>
      ⟨hnone.1, .inr ⟨j, before, rfl, hbefore, hnone.2⟩⟩⟩

/-- **An offset is one of 32 bits unless it was counted past them.** -/
theorem offset_le_iff_not_countedPast (h : Body.read source = .ok body) {i : Nat}
    {ins : Instruction} (hins : body[i]? = some ins) :
    -0x80000000 ≤ ins.offset ∧ (ins.offset ≤ 0x7fffffff ↔ ¬ CountedPast source body i) := by
  -- along the positions: a label begins anew, and without one the count goes on
  induction i generalizing ins with
  | zero =>
    have hnot : ¬ CountedPast source body 0 := by
      rintro ⟨j, hj, -⟩
      exact absurd hj (Nat.not_lt_zero j)
    obtain ⟨w, -, hlabel | ⟨-, ⟨-, hzero⟩ | ⟨j, before, hj, -⟩⟩⟩ := offset_of_read h hins
    · obtain ⟨hlower, hupper⟩ := hlabel.bounds
      exact ⟨hlower, iff_of_true hupper hnot⟩
    · rw [hzero]
      exact ⟨by decide, iff_of_true (by decide) hnot⟩
    · cases hj
  | succ i ih =>
    obtain ⟨w, hw, hlabel | ⟨hnone, ⟨hi, -⟩ | ⟨j, before, hj, hbefore, hoffset⟩⟩⟩ :=
      offset_of_read h hins
    · obtain ⟨hlower, hupper⟩ := hlabel.bounds
      exact ⟨hlower, iff_of_true hupper (not_countedPast_of_hasLabel hw ⟨_, hlabel⟩)⟩
    · cases hi
    · cases hj
      obtain ⟨hlower, hupper⟩ := ih hbefore
      rw [countedPast_succ_iff hbefore hw hnone, not_or, ← hupper, hoffset]
      omega

/-- **The label of an instruction is read as its offset unless it was
counted past the labels.** The offset is then one of 32 bits. Counted past
them, it is greater, and its label is refused. -/
theorem label_reads_back_unless_countedPast (h : Body.read source = .ok body) {i : Nat}
    {ins : Instruction} (hins : body[i]? = some ins) :
    (¬ CountedPast source body i →
      -0x80000000 ≤ ins.offset ∧ ins.offset ≤ 0x7fffffff ∧
        offset? ins.label.toList = some ins.offset) ∧
    (CountedPast source body i →
      0x7fffffff < ins.offset ∧ offset? ins.label.toList = none) := by
  obtain ⟨hlower, hupper⟩ := offset_le_iff_not_countedPast h hins
  have hread : offset? ins.label.toList =
      if fitsWord 32 ins.offset then some ins.offset else none := offset?_labelOf ins.offset
  constructor
  · intro hnot
    have hle := hupper.2 hnot
    exact ⟨hlower, hle, by rw [hread, if_pos (fitsWord_32_iff.2 ⟨hlower, hle⟩)]⟩
  · intro hpast
    have hgt : ¬ ins.offset ≤ 0x7fffffff := fun hle => hupper.1 hle hpast
    have hfits : ¬ fitsWord 32 ins.offset = true := fun hfits => hgt (fitsWord_32_iff.1 hfits).2
    exact ⟨Int.lt_of_not_ge hgt, by rw [hread, if_neg hfits]⟩

/-- A listing that goes on behind the greatest offset of a label. -/
def edgeListing : String :=
  "IL_7fffffff: nop\nnop"

def edgeBody : Body :=
  [⟨0x7fffffff, .simple "nop" 0 0, .nothing, none⟩, ⟨0x80000000, .simple "nop" 0 0, .nothing, none⟩]

theorem read_edgeListing : Body.read edgeListing = .ok edgeBody := by
  decide +kernel

/-- The theorem at both instructions of a listing. -/
theorem label_reads_back_unless_countedPast_edgeListing :
    Body.read edgeListing = .ok edgeBody ∧
    (¬ CountedPast edgeListing edgeBody 0 ∧
      offset? (labelOf 0x7fffffff).toList = some 0x7fffffff) ∧
    CountedPast edgeListing edgeBody 1 ∧ offset? (labelOf 0x80000000).toList = none := by
  have hfirst : edgeBody[0]? = some ⟨0x7fffffff, .simple "nop" 0 0, .nothing, none⟩ := rfl
  have hsecond : edgeBody[1]? = some ⟨0x80000000, .simple "nop" 0 0, .nothing, none⟩ := rfl
  have hnot := (offset_le_iff_not_countedPast read_edgeListing hfirst).2.1 (by decide)
  have hpast : CountedPast edgeListing edgeBody 1 := by
    by_contra hnot
    exact absurd ((offset_le_iff_not_countedPast read_edgeListing hsecond).2.2 hnot) (by decide)
  exact ⟨read_edgeListing,
    ⟨hnot, ((label_reads_back_unless_countedPast read_edgeListing hfirst).1 hnot).2.2⟩,
    hpast, ((label_reads_back_unless_countedPast read_edgeListing hsecond).2 hpast).2⟩

/-- **An offset may be beyond every label**: a listing is read, and one of
its instructions has a label that is refused. -/
theorem exists_offset_beyond_labels :
    ∃ source body, Body.read source = .ok body ∧ ∃ ins ∈ body,
      ¬ (-0x80000000 ≤ ins.offset ∧ ins.offset ≤ 0x7fffffff) ∧
        offset? ins.label.toList = none := by
  refine ⟨edgeListing, edgeBody, read_edgeListing,
    ⟨0x80000000, .simple "nop" 0 0, .nothing, none⟩, ?_, ?_, ?_⟩
  · exact List.mem_cons_of_mem _ List.mem_cons_self
  · decide
  · decide +kernel

end Body

end SmellCheck

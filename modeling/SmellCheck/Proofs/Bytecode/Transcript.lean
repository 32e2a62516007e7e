import SmellCheck.Proofs.Bytecode.Label
import SmellCheck.Proofs.Bytecode.Listing
import Mathlib.Data.List.Nodup
/-!
# Listings and the bodies they give

What a listing says is said here without the reader: the lines that are
left when comments and blanks are gone, the directives in front of each
instruction, and how a line is made up of a label, a mnemonic and an
operand. Every body that is read has one instruction for each line that
writes one, in their order, with the offset, the targets and the source
place that are written there (`Body.isTranscript_of_read`).
-/

namespace SmellCheck

open Text

namespace Listing

/-! ## What is written -/

/-- What a line says: the line without its comment, and without blanks at
either end. -/
def content (raw : List Char) : List Char :=
  trim (stripComment false raw)

/-- A line that writes an instruction, and what stands behind `.line` on
the lines between it and the instruction before. -/
structure Written where
  directives : List (List Char)
  line : List Char

/-- The instructions that are written on lines behind the given
directives. -/
def writtenAfter (directives : List (List Char)) : List (List Char) → List Written
  | [] => []
  | line :: lines =>
    match after? ".line".toList line with
    | some directive => writtenAfter (directives ++ [directive]) lines
    | none => ⟨directives, line⟩ :: writtenAfter [] lines

/-- The instructions that a listing writes. -/
def written (source : String) : List Written :=
  writtenAfter [] (((splitOn '\n' source.toList).map content).filter (!·.isEmpty))

/-- The text is a mnemonic alone, or a mnemonic and an operand with a
space and possibly more blanks between them. -/
inductive Statement : (cs mnemonic operand : List Char) → Prop
  | alone {mnemonic : List Char} : Statement mnemonic mnemonic []
  | withOperand {mnemonic gap operand : List Char} (hgap : IsGap gap) (hne : operand ≠ [])
      (htrim : trim operand = operand) :
      Statement (mnemonic ++ ' ' :: (gap ++ operand)) mnemonic operand

/-- The line is a statement, which may stand behind a label and a
colon. -/
inductive Spelling : (line : List Char) → (label : Option (List Char)) →
    (mnemonic operand : List Char) → Prop
  | bare {line mnemonic operand : List Char} (h : Statement line mnemonic operand) :
      Spelling line none mnemonic operand
  | labelled {label before behind statement mnemonic operand : List Char}
      (hbefore : IsGap before) (hbehind : IsGap behind)
      (h : Statement statement mnemonic operand) :
      Spelling (label ++ before ++ ':' :: (behind ++ statement)) (some label) mnemonic operand

/-- The hexadecimal number that a label is, of any size. -/
def hexValue? (label : List Char) : Option Int :=
  signed? 16 (dropLead "IL_".toList label)

/-- The offset that is written: the value of the label, or the given one
where there is no label. -/
def OffsetWritten (next : Int) : Option (List Char) → Int → Prop
  | none, offset => offset = next
  | some label, offset => hexValue? label = some offset

/-- The source place that is left by directives: that of the last one. -/
def PointWritten (directives : List (List Char)) (point : Option SourcePoint) : Prop :=
  ∃ points, points.getLast? = point ∧
    List.Forall₂ (fun directive point => readPoint directive = .ok point) directives points

/-- The labels that an operand is made of. -/
def writtenLabels : OperandKind → List Char → List (List Char)
  | .branchTarget, operand => [operand]
  | .switchTable, operand => switchLabels operand
  | _, _ => []

/-- The values go with what is written, one by one. What a value has to
be may depend on the offset it has if it is written without a label,
which is one more than the offset of the value before. -/
inductive Numbered {α : Type} (offset : α → Int) (R : Int → Written → α → Prop) :
    (next : Int) → List Written → List α → Prop
  | nil {next : Int} : Numbered offset R next [] []
  | cons {next : Int} {w : Written} {a : α} {ws : List Written} {as : List α}
      (head : R next w a) (tail : Numbered offset R (offset a + 1) ws as) :
      Numbered offset R next (w :: ws) (a :: as)

/-- A list of other values that correspond to the given ones. -/
theorem Numbered.of_forall₂ {α β : Type} {offset : α → Int} {offset' : β → Int}
    {R : Int → Written → α → Prop} {R' : Int → Written → β → Prop} {S : α → β → Prop}
    (hoffset : ∀ a b, S a b → offset' b = offset a)
    (hR : ∀ next w a b, S a b → R next w a → R' next w b)
    {next : Int} {ws : List Written} {as : List α} {bs : List β}
    (h : Numbered offset R next ws as) (hS : List.Forall₂ S as bs) :
    Numbered offset' R' next ws bs := by
  induction h generalizing bs with
  | nil =>
    cases hS
    exact .nil
  | cons head _ ih =>
    cases hS with
    | cons hab hrest =>
      refine .cons (hR _ _ _ _ hab head) ?_
      rw [hoffset _ _ hab]
      exact ih hrest

/-- What goes with something written has it in the list. -/
theorem Numbered.exists_mem {α : Type} {offset : α → Int} {R : Int → Written → α → Prop}
    {next : Int} {ws : List Written} {as : List α} (h : Numbered offset R next ws as) {a : α}
    (ha : a ∈ as) : ∃ next, ∃ w ∈ ws, R next w a := by
  induction h with
  | nil => exact absurd ha List.not_mem_nil
  | @cons next w b ws as head _ ih =>
    rcases List.mem_cons.1 ha with rfl | ha
    · exact ⟨next, w, List.mem_cons_self, head⟩
    · obtain ⟨next', w', hw', hR⟩ := ih ha
      exact ⟨next', w', List.mem_cons_of_mem w hw', hR⟩

/-- What goes with something written goes with what is written at its
place, and its next offset is that of the value before. -/
theorem Numbered.exists_getElem? {α : Type} {offset : α → Int} {R : Int → Written → α → Prop}
    {next : Int} {ws : List Written} {as : List α} (h : Numbered offset R next ws as) {i : Nat}
    {a : α} (ha : as[i]? = some a) :
    ∃ w, ws[i]? = some w ∧ (i = 0 ∧ R next w a ∨
      ∃ j b, i = j + 1 ∧ as[j]? = some b ∧ R (offset b + 1) w a) := by
  induction h generalizing i with
  | nil => cases ha
  | @cons next w b ws as head _ ih =>
    cases i with
    | zero =>
      cases ha
      exact ⟨w, rfl, .inl ⟨rfl, head⟩⟩
    | succ i =>
      obtain ⟨v, hv, ⟨rfl, hR⟩ | ⟨j, c, rfl, hc, hR⟩⟩ := ih ha
      · exact ⟨v, hv, .inr ⟨0, b, rfl, rfl, hR⟩⟩
      · exact ⟨v, hv, .inr ⟨j + 1, c, rfl, hc, hR⟩⟩

/-! ## Lines -/

/-- The reader takes a statement apart. -/
theorem statement_of_splitMnemonic {cs : List Char} (h : trim cs = cs) :
    Statement cs (splitMnemonic cs).1 (splitMnemonic cs).2 := by
  rw [splitMnemonic]
  split
  · rename_i mnemonic operand hcut
    have hcs : cs = mnemonic ++ [' '] ++ operand := by
      rw [eq_of_cut? hcut, List.append_assoc]
    rw [hcs] at h
    obtain ⟨gap, hgap, hoperand⟩ := exists_gap_of_trim_append h
    have hne : trim operand ≠ [] := by
      intro hnil
      -- a trimmed text does not end with the space
      rw [eq_nil_of_trim_append h hnil, List.append_nil] at h
      exact absurd (isBlank_last_of_trim h) (by decide)
    have hstatement :
        Statement (mnemonic ++ ' ' :: (gap ++ trim operand)) mnemonic (trim operand) :=
      .withOperand hgap hne (trim_trim operand)
    rw [← hoperand] at hstatement
    rw [hcs, List.append_assoc]
    exact hstatement
  · exact .alone

/-- **The reader takes a line apart** into its label, mnemonic and
operand. -/
theorem spelling_of_split {line : List Char} (h : trim line = line) :
    Spelling line ((splitLabel line).1.map trim) (splitMnemonic (splitLabel line).2).1
      (splitMnemonic (splitLabel line).2).2 := by
  rw [splitLabel]
  split
  · rename_i label rest hcut
    split
    · rename_i hlabel
      have hline : line = label ++ ([':'] ++ rest) := eq_of_cut? hcut
      obtain ⟨before, hbefore, hfront⟩ := exists_gap_of_trim_append_left (hline ▸ h)
      have hrest : trim ((label ++ [':']) ++ rest) = (label ++ [':']) ++ rest := by
        rw [List.append_assoc, ← hline, h]
      obtain ⟨behind, hbehind, hback⟩ := exists_gap_of_trim_append hrest
      have hspelling : Spelling (trim label ++ before ++ ':' :: (behind ++ trim rest))
          (some (trim label)) (splitMnemonic (trim rest)).1 (splitMnemonic (trim rest)).2 :=
        .labelled hbefore hbehind (statement_of_splitMnemonic (trim_trim rest))
      rw [← hfront, ← hback] at hspelling
      rw [hline]
      exact hspelling
    · exact .bare (statement_of_splitMnemonic h)
  · exact .bare (statement_of_splitMnemonic h)

/-! ## Reading -/

/-- **What it takes to read an instruction**, and what it adds. -/
theorem readInstruction_eq_ok {p p' : Progress} {number : Nat} {line : List Char} :
    readInstruction p number line = .ok p' ↔ ∃ offset opcode operand,
      offsetFor p.nextOffset (splitLabel line).1 = .ok offset ∧
      offset ∉ p.drafts.map (·.offset) ∧
      Opcode.ofName? (String.ofList (splitMnemonic (splitLabel line).2).1) = some opcode ∧
      readOperandOrNothing opcode.operand (splitMnemonic (splitLabel line).2).2 = .ok operand ∧
      p' = { drafts := p.drafts ++ [⟨number, offset, opcode, operand, p.point⟩]
             point := none
             nextOffset := offset + 1 } := by
  have hany (offset : Int) :
      p.drafts.any (·.offset == offset) = true ↔ offset ∈ p.drafts.map (·.offset) := by
    simp only [List.any_eq_true, List.mem_map, beq_iff_eq]
  rw [readInstruction]
  generalize splitLabel line = parts
  obtain ⟨label, rest⟩ := parts
  simp only
  generalize splitMnemonic rest = parts
  obtain ⟨mnemonic, text⟩ := parts
  simp only
  constructor
  · intro h
    obtain ⟨offset, hoffset, h⟩ := bind_eq_ok.1 h
    by_cases hdup : p.drafts.any (·.offset == offset) = true
    · rw [if_pos hdup] at h
      cases h
    rw [if_neg hdup] at h
    split at h
    · cases h
    · rename_i opcode hopcode
      obtain ⟨operand, hoperand, h⟩ := bind_eq_ok.1 h
      cases h
      exact ⟨offset, opcode, operand, hoffset, (hany offset).not.1 hdup, hopcode,
        mapError_eq_ok.1 hoperand, rfl⟩
  · rintro ⟨offset, opcode, operand, hoffset, hnew, hopcode, hoperand, rfl⟩
    refine bind_eq_ok.2 ⟨offset, hoffset, ?_⟩
    rw [if_neg ((hany offset).not.2 hnew), hopcode]
    exact bind_eq_ok.2 ⟨operand, mapError_eq_ok.2 hoperand, rfl⟩

/-- What a line can do: nothing, give a source place, or write an
instruction. -/
theorem readLine_cases {p p' : Progress} {number : Nat} {raw : List Char}
    (h : readLine p number raw = .ok p') :
    content raw = [] ∧ p' = p ∨
    (∃ directive point, content raw ≠ [] ∧ after? ".line".toList (content raw) = some directive ∧
      readPoint directive = .ok point ∧ p' = { p with point := some point }) ∨
    content raw ≠ [] ∧ after? ".line".toList (content raw) = none ∧
      readInstruction p number (content raw) = .ok p' := by
  rw [readLine] at h
  split at h
  · rename_i hempty
    cases h
    exact .inl ⟨List.isEmpty_iff.1 hempty, rfl⟩
  rename_i hempty
  have hne : content raw ≠ [] := fun hnil => hempty (List.isEmpty_iff.2 hnil)
  split at h
  · rename_i directive hafter
    obtain ⟨point, hpoint, rfl⟩ := map_eq_ok.1 h
    exact .inr (.inl ⟨directive, point, hne, hafter, hpoint, rfl⟩)
  · rename_i hafter
    exact .inr (.inr ⟨hne, hafter, h⟩)

/-- What a draft takes from the line that writes it. -/
structure Draft.Follows (next : Int) (w : Written) (d : Draft) (label : Option (List Char))
    (operand : List Char) : Prop where
  spelling : Spelling w.line label d.opcode.name.toList operand
  opcode_named : Opcode.ofName? d.opcode.name = some d.opcode
  offset_written : OffsetWritten next label d.offset
  offset_labelled : LabelledWith w.line d.offset ∨ ¬ HasLabel w.line ∧ d.offset = next
  operand_read : readOperandOrNothing d.opcode.operand operand = .ok d.operand
  point_written : PointWritten w.directives d.point

theorem name_of_ofName? {name : String} {op : Opcode} (h : Opcode.ofName? name = some op) :
    op.name = name := by
  simpa using List.find?_some h

theorem offsetWritten_of_offsetFor {next offset : Int} {label : Option (List Char)}
    (h : offsetFor next label = .ok offset) : OffsetWritten next (label.map trim) offset := by
  cases label with
  | none =>
    cases h
    rfl
  | some label =>
    have hvalue := offset?_of_offsetFor h
    rw [offset?, int?_eq, Option.filter_eq_some_iff] at hvalue
    exact hvalue.1

/-- An instruction's line adds a draft that follows it. -/
theorem exists_follows_of_readInstruction {p p' : Progress} {number : Nat} {line : List Char}
    {directives : List (List Char)} (hline : trim line = line)
    (hpoint : PointWritten directives p.point) (h : readInstruction p number line = .ok p') :
    ∃ d label operand, Draft.Follows p.nextOffset ⟨directives, line⟩ d label operand ∧
      d.offset ∉ p.drafts.map (·.offset) ∧ p'.drafts = p.drafts ++ [d] ∧ p'.point = none ∧
      p'.nextOffset = d.offset + 1 := by
  obtain ⟨offset, opcode, operand, hoffset, hnew, hopcode, hoperand, rfl⟩ :=
    readInstruction_eq_ok.1 h
  have hname := name_of_ofName? hopcode
  refine ⟨_, _, _, ⟨?_, hname ▸ hopcode, offsetWritten_of_offsetFor hoffset,
    offset_of_offsetFor hline hoffset, hoperand, hpoint⟩, hnew, rfl, rfl, rfl⟩
  rw [hname, String.toList_ofList]
  exact spelling_of_split hline

/-- One directive more. -/
theorem PointWritten.concat {directives : List (List Char)} {directive : List Char}
    {before : Option SourcePoint} {point : SourcePoint} (h : PointWritten directives before)
    (hpoint : readPoint directive = .ok point) :
    PointWritten (directives ++ [directive]) (some point) := by
  obtain ⟨points, -, hpoints⟩ := h
  refine ⟨points ++ [point], List.getLast?_concat, ?_⟩
  exact List.rel_append hpoints (.cons hpoint .nil)

theorem pointWritten_nil : PointWritten [] none :=
  ⟨[], rfl, .nil⟩

/-- **The drafts of a listing** follow the lines that write them, and no
two have the same offset. -/
theorem exists_drafts_of_readLines {lines : List (List Char)} {p p' : Progress} {number : Nat}
    {directives : List (List Char)} (hpoint : PointWritten directives p.point)
    (hnodup : (p.drafts.map (·.offset)).Nodup) (h : readLines p number lines = .ok p') :
    (p'.drafts.map (·.offset)).Nodup ∧ ∃ ds, p'.drafts = p.drafts ++ ds ∧
      Numbered Draft.offset (fun next w d => ∃ label operand, d.Follows next w label operand)
        p.nextOffset (writtenAfter directives ((lines.map content).filter (!·.isEmpty))) ds := by
  -- along the lines: `directives` are those that wait for an instruction
  induction lines generalizing p number directives with
  | nil =>
    cases h
    exact ⟨hnodup, [], by rw [List.append_nil], .nil⟩
  | cons raw lines ih =>
    rw [readLines] at h
    split at h
    swap
    · cases h
    rename_i q hq
    rw [List.map_cons]
    rcases readLine_cases hq with ⟨hnil, rfl⟩ | ⟨directive, point, hne, hafter, hread, rfl⟩ |
      ⟨hne, hafter, hread⟩
    · rw [List.filter_cons_of_neg (by simp [hnil])]
      exact ih hpoint hnodup h
    · rw [List.filter_cons_of_pos (by simp [hne]), writtenAfter, hafter]
      exact ih (p := { p with point := some point }) (hpoint.concat hread) hnodup h
    · obtain ⟨d, label, operand, hfollows, hnew, hdrafts, hnone, hnext⟩ :=
        exists_follows_of_readInstruction (trim_trim _) hpoint hread
      have hnodup' : (q.drafts.map (·.offset)).Nodup := by
        rw [hdrafts, List.map_append, List.map_singleton]
        exact List.nodup_append'.2 ⟨hnodup, List.nodup_singleton _,
          List.disjoint_singleton.2 hnew⟩
      have hnil : PointWritten [] q.point := hnone ▸ pointWritten_nil
      obtain ⟨hnodup', ds, hds, hnumbered⟩ := ih hnil hnodup' h
      rw [hnext] at hnumbered
      rw [List.filter_cons_of_pos (by simp [hne]), writtenAfter, hafter]
      refine ⟨hnodup', d :: ds, ?_, .cons ⟨label, operand, hfollows⟩ hnumbered⟩
      rw [hds, hdrafts, List.append_assoc, List.singleton_append]

/-! ## Labels -/

theorem toList_labelOf (offset : Int) :
    (labelOf offset).toList = "IL_".toList ++ hexInt 4 offset :=
  String.toList_ofList

/-- A label is read as the offset it was written for. -/
theorem hexValue?_labelOf (offset : Int) : hexValue? (labelOf offset).toList = some offset := by
  rw [hexValue?, toList_labelOf, dropLead_append, signed?_hexInt]

/-- The reader takes a label for one if its offset fits 32 bits. -/
theorem offset?_labelOf (offset : Int) :
    offset? (labelOf offset).toList = if fitsWord 32 offset then some offset else none := by
  have hvalue : signed? 16 (dropLead "IL_".toList (labelOf offset).toList) = some offset :=
    hexValue?_labelOf offset
  rw [offset?, int?_eq, hvalue, Option.filter_some]

theorem labelOf_injective : Function.Injective labelOf := by
  intro a b h
  have hvalue := hexValue?_labelOf a
  rw [h, hexValue?_labelOf] at hvalue
  exact (Option.some.inj hvalue).symm

/-- **A label leads to the draft whose offset it names**, also where it
is looked up by its wording. -/
theorem exists_draft_of_resolve {drafts : List Draft} {label : List Char} {position : Nat}
    (h : resolve drafts label = .ok position) :
    ∃ d, drafts[position]? = some d ∧ hexValue? label = some d.offset := by
  rw [resolve] at h
  split at h
  swap
  · cases h
  rename_i found hfound
  cases h
  rw [position?] at hfound
  split at hfound
  · rename_i offset hoffset
    obtain ⟨hlt, heq, -⟩ := List.findIdx?_eq_some_iff_getElem.1 hfound
    refine ⟨drafts[position], List.getElem?_eq_getElem hlt, ?_⟩
    rw [offset?, int?_eq, Option.filter_eq_some_iff] at hoffset
    rw [eq_of_beq heq]
    exact hoffset.1
  · obtain ⟨hlt, heq, -⟩ := List.findIdx?_eq_some_iff_getElem.1 hfound
    refine ⟨drafts[position], List.getElem?_eq_getElem hlt, ?_⟩
    have hlabel := hexValue?_labelOf drafts[position].offset
    rwa [eq_of_beq heq, String.toList_ofList] at hlabel

/-- The label names the instruction at the position. -/
def Names (body : Body) (label : List Char) (position : Nat) : Prop :=
  ∃ target, body[position]? = some target ∧ hexValue? label = some target.offset

/-- The instruction of a draft differs from it in the operand only. -/
theorem eq_of_resolveDraft {drafts : List Draft} {d : Draft} {ins : Instruction}
    (h : resolveDraft drafts d = .ok ins) :
    ∃ operand, resolveOperand drafts d.operand = .ok operand ∧
      ins = ⟨d.offset, d.opcode, operand, d.point⟩ := by
  rw [resolveDraft] at h
  split at h
  · rename_i operand hoperand
    cases h
    exact ⟨operand, hoperand, rfl⟩
  · cases h

theorem names_of_resolve {drafts : List Draft} {body : Body}
    (hbody : List.Forall₂ (fun d ins => resolveDraft drafts d = .ok ins) drafts body)
    {label : List Char} {position : Nat} (h : resolve drafts label = .ok position) :
    Names body label position := by
  obtain ⟨d, hd, hvalue⟩ := exists_draft_of_resolve h
  obtain ⟨hlt, rfl⟩ := List.getElem?_eq_some_iff.1 hd
  have hlt' : position < body.length := hbody.length_eq ▸ hlt
  obtain ⟨operand, -, heq⟩ := eq_of_resolveDraft (hbody.get hlt hlt')
  refine ⟨body[position], List.getElem?_eq_getElem hlt', ?_⟩
  rw [hvalue]
  exact congrArg some (congrArg Instruction.offset heq).symm

/-- Only what asks for nothing has nothing behind its mnemonic. -/
theorem eq_nil_iff_of_readOperandOrNothing {kind : OperandKind} {cs : List Char}
    {draft : DraftOperand} (h : readOperandOrNothing kind cs = .ok draft) :
    cs = [] ↔ kind = .nothing := by
  rw [readOperandOrNothing] at h
  split at h
  · rename_i hempty
    split at h
    · rename_i hkind
      simp [List.isEmpty_iff.1 hempty, hkind]
    · cases h
  · rename_i hempty
    have hne : cs ≠ [] := fun hnil => hempty (List.isEmpty_iff.2 hnil)
    have hkind : kind ≠ .nothing := by
      rintro rfl
      cases h
    simp [hne, hkind]

/-- The labels of a draft are those that are written. -/
theorem writtenLabels_of_readOperandOrNothing {kind : OperandKind} {cs : List Char} :
    (∀ label, readOperandOrNothing kind cs = .ok (.branch label) →
      writtenLabels kind cs = [label]) ∧
    ∀ labels, readOperandOrNothing kind cs = .ok (.switch labels) →
      writtenLabels kind cs = labels := by
  constructor
  · intro label h
    obtain rfl := kind_of_labels.1 label h
    rw [readOperandOrNothing] at h
    split at h
    · split at h <;> cases h
    · cases h
      rfl
  · intro labels h
    obtain ⟨rfl, -⟩ := kind_of_labels.2 labels h
    rw [readOperandOrNothing] at h
    split at h
    · split at h <;> cases h
    · simp only [readOperand] at h
      split at h
      · cases h
      · cases h
        rfl

/-- **The labels behind a mnemonic are looked up one by one.** -/
theorem forall₂_names_of_resolveDraft {drafts : List Draft} {body : Body}
    (hbody : List.Forall₂ (fun d ins => resolveDraft drafts d = .ok ins) drafts body)
    {d : Draft} {ins : Instruction} {cs : List Char} (h : resolveDraft drafts d = .ok ins)
    (hread : readOperandOrNothing d.opcode.operand cs = .ok d.operand) :
    List.Forall₂ (Names body) (writtenLabels d.opcode.operand cs) ins.targets := by
  obtain ⟨operand, hoperand, rfl⟩ := eq_of_resolveDraft h
  cases hdraft : d.operand with
  | ready ready =>
    rw [hdraft] at hread hoperand
    cases hoperand
    obtain ⟨hadmits, hbranch, hswitch⟩ := admits_of_ready hread
    rw [Instruction.targets_eq_nil hadmits hbranch hswitch, writtenLabels]
    · exact .nil
    · exact hbranch
    · exact hswitch
  | branch label =>
    rw [hdraft] at hread hoperand
    obtain ⟨position, hposition, rfl⟩ := map_eq_ok.1 hoperand
    rw [writtenLabels_of_readOperandOrNothing.1 label hread]
    exact .cons (names_of_resolve hbody hposition) .nil
  | switch labels =>
    rw [hdraft] at hread hoperand
    obtain ⟨positions, hpositions, rfl⟩ := map_eq_ok.1 hoperand
    rw [writtenLabels_of_readOperandOrNothing.2 labels hread]
    exact (forall₂_of_mapM hpositions).imp fun _ _ hlabel => names_of_resolve hbody hlabel

end Listing

/-- **What an instruction takes from the line that writes it.** The label
and the operand are those of the line. -/
structure Instruction.Transcribes (body : Body) (next : Int) (w : Listing.Written)
    (ins : Instruction) (label : Option (List Char)) (operand : List Char) : Prop where
  spelling : Listing.Spelling w.line label ins.opcode.name.toList operand
  opcode_mem : ins.opcode ∈ Opcode.all
  offset_written : Listing.OffsetWritten next label ins.offset
  operand_admitted : ins.opcode.operand.admits ins.operand = true
  operand_written : operand = [] ↔ ins.opcode.operand = .nothing
  targets_named : List.Forall₂ (Listing.Names body)
    (Listing.writtenLabels ins.opcode.operand operand) ins.targets
  point_written : Listing.PointWritten w.directives ins.point

namespace Body

/-! ## Bodies -/

/-- **The body is what is written**: one instruction for each line that
writes one, in their order. -/
def IsTranscript (body : Body) (source : String) : Prop :=
  Listing.Numbered Instruction.offset
    (fun next w ins => ∃ label operand, ins.Transcribes body next w label operand) 0
    (Listing.written source) body

variable {source : String} {body : Body}

/-- The drafts of a body that was read. -/
theorem exists_drafts_of_read (h : Body.read source = .ok body) :
    ∃ drafts : List Listing.Draft, (drafts.map (·.offset)).Nodup ∧
      Listing.Numbered Listing.Draft.offset
        (fun next w d => ∃ label operand, d.Follows next w label operand) 0
        (Listing.written source) drafts ∧
      List.Forall₂ (fun d ins => Listing.resolveDraft drafts d = .ok ins) drafts body := by
  obtain ⟨p, hp, hbody⟩ := bind_eq_ok.1 h
  obtain ⟨hnodup, ds, hds, hnumbered⟩ :=
    Listing.exists_drafts_of_readLines (p := {}) Listing.pointWritten_nil List.nodup_nil hp
  rw [List.nil_append] at hds
  exact ⟨p.drafts, hnodup, hds ▸ hnumbered, forall₂_of_mapM hbody⟩

/-- **What is read from a listing is in order.** -/
theorem wellFormed_of_read (h : Body.read source = .ok body) : body.WellFormed := by
  obtain ⟨drafts, -, hnumbered, hbody⟩ := exists_drafts_of_read h
  intro ins hins
  obtain ⟨d, hd, hresolve⟩ := exists_mem_of_forall₂ hbody hins
  obtain ⟨next, w, -, label, operand, hfollows⟩ := hnumbered.exists_mem hd
  exact Listing.wellFormed_of_resolveDraft hbody.length_eq.symm
    ⟨Opcode.mem_all_of_ofName? hfollows.opcode_named, operand, hfollows.operand_read⟩ hresolve

theorem nodup_offsets_of_read (h : Body.read source = .ok body) :
    (body.map (·.offset)).Nodup := by
  obtain ⟨drafts, hnodup, -, hbody⟩ := exists_drafts_of_read h
  have hoffsets : drafts.map (·.offset) = body.map (·.offset) := by
    refine map_eq_of_forall₂ hbody fun d ins hresolve => ?_
    obtain ⟨operand, -, rfl⟩ := Listing.eq_of_resolveDraft hresolve
    rfl
  exact hoffsets ▸ hnodup

/-- **A body that is read is what is written.** -/
theorem isTranscript_of_read (h : Body.read source = .ok body) : body.IsTranscript source := by
  obtain ⟨drafts, -, hnumbered, hbody⟩ := exists_drafts_of_read h
  refine hnumbered.of_forall₂ (fun d ins hresolve => ?_) (fun next w d ins hresolve hd => ?_) hbody
  · obtain ⟨operand, -, rfl⟩ := Listing.eq_of_resolveDraft hresolve
    rfl
  · obtain ⟨label, text, hd⟩ := hd
    have hwf := Listing.wellFormed_of_resolveDraft hbody.length_eq.symm
      ⟨Opcode.mem_all_of_ofName? hd.opcode_named, text, hd.operand_read⟩ hresolve
    have htargets := Listing.forall₂_names_of_resolveDraft hbody hresolve hd.operand_read
    obtain ⟨operand, -, rfl⟩ := Listing.eq_of_resolveDraft hresolve
    exact ⟨label, text,
      { spelling := hd.spelling
        opcode_mem := hwf.opcode_mem
        offset_written := hd.offset_written
        operand_admitted := hwf.operand_admitted
        operand_written := Listing.eq_nil_iff_of_readOperandOrNothing hd.operand_read
        targets_named := htargets
        point_written := hd.point_written }⟩

theorem next?_eq_some {i j : Nat} : body.next? i = some j ↔ j = i + 1 ∧ j < body.length := by
  rw [next?]
  split <;> simp <;> omega

theorem previous?_eq_some {i j : Nat} :
    body.previous? j = some i ↔ j = i + 1 ∧ j < body.length := by
  cases j with
  | zero => simp [previous?]
  | succ j =>
    rw [previous?]
    split <;> simp <;> omega

/-- **Every body that is read from a listing is well formed.** Offsets and
labels are distinct, the next and the previous instruction are the
neighbours in the body, and the instructions are those that are written:
their labels, operands, targets and source places are the ones of their
lines. -/
theorem read_gives_transcript (h : Body.read source = .ok body) :
    (body.map (·.offset)).Nodup ∧ (body.map (·.label)).Nodup ∧
    (∀ i j, (body.next? i = some j ↔ j = i + 1 ∧ j < body.length) ∧
      (body.previous? j = some i ↔ j = i + 1 ∧ j < body.length)) ∧
    body.IsTranscript source := by
  have hoffsets := nodup_offsets_of_read h
  have hlabels : (body.map (·.label)).Nodup := by
    have := hoffsets.map Listing.labelOf_injective
    rwa [List.map_map] at this
  exact ⟨hoffsets, hlabels, fun i j => ⟨next?_eq_some, previous?_eq_some⟩,
    isTranscript_of_read h⟩

/-- A listing with labels that are given and left out, a branch forward
and a switch back. -/
def jumpListing : String :=
  ".line 3 f\nbr IL_-1 // on\nIL_-1: switch (0, IL_-001)\n"

def jumpBody : Body :=
  [⟨0, ⟨"br", .branch, .fixed 0, .fixed 0, .branchTarget, none, none, false, none⟩, .target 1,
      some ⟨"f", 3⟩⟩,
   ⟨-1, ⟨"switch", .condBranch, .fixed 1, .fixed 0, .switchTable, none, none, false, none⟩,
      .table [0, 1], none⟩]

/-- The theorem at a listing. -/
theorem read_gives_transcript_jumpListing :
    Body.read jumpListing = .ok jumpBody ∧ (jumpBody.map (·.offset)).Nodup ∧
    (jumpBody.map (·.label)).Nodup ∧
    (∀ i j, (jumpBody.next? i = some j ↔ j = i + 1 ∧ j < jumpBody.length) ∧
      (jumpBody.previous? j = some i ↔ j = i + 1 ∧ j < jumpBody.length)) ∧
    jumpBody.IsTranscript jumpListing := by
  have hread : Body.read jumpListing = .ok jumpBody := by decide +kernel
  exact ⟨hread, read_gives_transcript hread⟩

end Body

end SmellCheck

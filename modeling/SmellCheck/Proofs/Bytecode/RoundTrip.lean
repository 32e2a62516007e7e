import SmellCheck.Proofs.Bytecode.OnLine
/-!
# Listings written again

A body that was read from a listing is written again, one instruction a
line, and read back as the same body (`Body.read_listing`). Each line is
a label, a mnemonic and an operand that stand on a line, so the reader
takes it apart where it was put together. The operand gives what it was
written for, and the labels lead to the positions that they were written
for.
-/

namespace SmellCheck

open Text

namespace Listing

/-- A label that is written for an offset stands for it, if it fits. -/
theorem labelWritten_labelOf {offset : Int} (h : fitsWord 32 offset = true) :
    LabelWritten (labelOf offset).toList offset := by
  refine ⟨hexInt 4 offset, [], by rw [toList_labelOf, List.append_nil], ?_, isGap_nil⟩
  rw [int?_eq, signed?_hexInt, Option.filter_some_pos h]

/-! ## Lines -/

/-- The operand with labels for positions, as a line has it. -/
def draftOperand (label : Nat → String) : Operand → DraftOperand
  | .target position => .branch (label position).toList
  | .table positions => .switch (positions.map fun position => (label position).toList)
  | operand => .ready operand

/-- **The operand is read from what is written for it.** -/
def OperandRereads (label : Nat → String) (kind : OperandKind) (operand : Operand) : Prop :=
  match operand.text? label with
  | none => kind = .nothing ∧ operand = .nothing
  | some s => OnLine s.toList ∧ readOperand kind s.toList = .ok (draftOperand label operand)

/-- **An instruction that is read from its line.** -/
structure Rereads (body : Body) (ins : Instruction) : Prop where
  opcode_named : Opcode.ofName? ins.opcode.name = some ins.opcode
  offset_fits : fitsWord 32 ins.offset = true
  operand_rereads : OperandRereads body.label ins.opcode.operand ins.operand
  targets_lt : ∀ position ∈ ins.targets, position < body.length

/-- What is written behind the label. -/
def statementText (body : Body) (ins : Instruction) : List Char :=
  ins.opcode.name.toList ++
    match ins.operand.text? body.label with
    | some operand => ' ' :: operand.toList
    | none => []

theorem toList_text (body : Body) (ins : Instruction) :
    (ins.text body).toList =
      (labelOf ins.offset).toList ++ ([':', ' '] ++ statementText body ins) := by
  rw [Instruction.text, statementText, Instruction.label]
  cases ins.operand.text? body.label <;> simp [String.toList_append]

variable {body : Body} {ins : Instruction}

/-- The statement is taken apart where it was put together. -/
theorem Rereads.splitMnemonic (h : Rereads body ins) :
    OnLine (statementText body ins) ∧ ∃ operand,
      Listing.splitMnemonic (statementText body ins) = (ins.opcode.name.toList, operand) ∧
      readOperandOrNothing ins.opcode.operand operand =
        .ok (draftOperand body.label ins.operand) := by
  have hname := quietWord_name h.opcode_named
  have hspace : ' ' ∉ ins.opcode.name.toList := fun hmem =>
    absurd (hname.isWord.2 _ hmem) (by decide)
  have hoperand := h.operand_rereads
  rw [OperandRereads] at hoperand
  rw [statementText]
  cases htext : ins.operand.text? body.label with
  | none =>
    rw [htext] at hoperand
    obtain ⟨hkind, hnothing⟩ := hoperand
    simp only [List.append_nil]
    refine ⟨hname.onLine, [], ?_, ?_⟩
    · rw [Listing.splitMnemonic, cut?_eq_none.2 hspace]
    · rw [hkind, hnothing]
      rfl
  | some s =>
    rw [htext] at hoperand
    obtain ⟨hline, hread⟩ := hoperand
    have hstatement : OnLine (ins.opcode.name.toList ++ ([' '] ++ s.toList)) :=
      .append hname (by decide) hline
    refine ⟨hstatement, s.toList, ?_, ?_⟩
    · simp only [Listing.splitMnemonic, cut?_singleton hspace, hline.trimmed]
    · rw [readOperandOrNothing, if_neg (by simpa using hline.ne_nil), hread]

/-- **The line of an instruction stands as it is.** -/
theorem Rereads.onLine_text (h : Rereads body ins) : OnLine (ins.text body).toList := by
  rw [toList_text]
  exact .append (quietWord_labelOf ins.offset) (by decide) h.splitMnemonic.1

/-- A statement begins as its mnemonic does, which is neither a label nor
a directive. -/
theorem Rereads.head?_statementText (h : Rereads body ins) :
    (statementText body ins).head? ≠ some 'I' ∧ (statementText body ins).head? ≠ some '.' := by
  have table : ∀ op ∈ Opcode.all,
      op.name.toList.head? ≠ some 'I' ∧ op.name.toList.head? ≠ some '.' := by decide +kernel
  rw [statementText, List.head?_append_of_ne_nil _ (quietWord_name h.opcode_named).isWord.1]
  exact table ins.opcode (Opcode.mem_all_of_ofName? h.opcode_named)

/-- The draft of an instruction's line. -/
def draftOf (body : Body) (number : Nat) (ins : Instruction) : Draft :=
  ⟨number, ins.offset, ins.opcode, draftOperand body.label ins.operand, none⟩

/-- **The line of an instruction gives its draft**, whatever stands in
front of it and behind. -/
theorem Rereads.readLine_of_content (h : Rereads body ins) {p : Progress} {front raw : List Char}
    (hfront : Front p.nextOffset front ins.offset)
    (hcontent : content raw = front ++ statementText body ins) (hpoint : p.point = none)
    (hnew : ins.offset ∉ p.drafts.map (·.offset)) (number : Nat) :
    Listing.readLine p number raw =
      .ok ⟨p.drafts ++ [draftOf body number ins], none, ins.offset + 1⟩ := by
  obtain ⟨hline, operand, hsplit, hread⟩ := h.splitMnemonic
  obtain ⟨hI, hdot⟩ := h.head?_statementText
  -- a colon in the operand is no end of a label
  have hmark : ¬ "IL_".toList <+: statementText body ins := by
    rintro ⟨rest, heq⟩
    exact hI (by rw [← heq]; rfl)
  obtain ⟨hoffset, hrest⟩ := hfront.splitLabel hline.trimmed hmark
  have hempty : ¬ (front ++ statementText body ins).isEmpty = true := by simp [hline.ne_nil]
  have hdirective := hfront.after?_directive hdot
  have hraw : trim (stripComment false raw) = front ++ statementText body ins := hcontent
  rw [Listing.readLine]
  simp only [hraw, if_neg hempty, hdirective]
  refine readInstruction_eq_ok.2 ⟨ins.offset, ins.opcode, draftOperand body.label ins.operand,
    hoffset, hnew, ?_, ?_, ?_⟩
  · rw [hrest, hsplit, String.ofList_toList, h.opcode_named]
  · rw [hrest, hsplit, hread]
  · rw [draftOf, hpoint]

/-- And so does the line that is written for it. -/
theorem Rereads.readLine (h : Rereads body ins) {p : Progress} (hpoint : p.point = none)
    (hnew : ins.offset ∉ p.drafts.map (·.offset)) (number : Nat) :
    Listing.readLine p number (ins.text body).toList =
      .ok ⟨p.drafts ++ [draftOf body number ins], none, ins.offset + 1⟩ := by
  have hlabel := labelWritten_labelOf h.offset_fits
  refine h.readLine_of_content (.labelled hlabel (isGap_singleton rfl : IsGap [' '])) ?_ hpoint hnew
    number
  rw [h.onLine_text.content_eq, toList_text]
  simp

/-- **The lines of instructions give their drafts**, one after the
other. -/
theorem exists_readLines_texts {instructions : List Instruction}
    (h : ∀ ins ∈ instructions, Rereads body ins) {p : Progress} (hpoint : p.point = none)
    (hnodup : (p.drafts.map (·.offset) ++ instructions.map (·.offset)).Nodup) (number : Nat) :
    ∃ p' ds, readLines p number (instructions.map fun ins => (ins.text body).toList) = .ok p' ∧
      p'.drafts = p.drafts ++ ds ∧
      List.Forall₂ (fun ins d => Rereads body ins ∧ ∃ number, d = draftOf body number ins)
        instructions ds := by
  induction instructions generalizing p number with
  | nil => exact ⟨p, [], rfl, (List.append_nil _).symm, .nil⟩
  | cons ins instructions ih =>
    obtain ⟨hins, hrest⟩ := List.forall_mem_cons.1 h
    have hnew : ins.offset ∉ p.drafts.map (·.offset) := by
      intro hmem
      exact (List.nodup_append'.1 hnodup).2.2 hmem (by simp)
    have hnodup' : ((p.drafts ++ [draftOf body number ins]).map (·.offset) ++
        instructions.map (·.offset)).Nodup := by
      simpa [draftOf] using hnodup
    have hstep := hins.readLine hpoint hnew number
    -- a written line leaves no source place for the next one
    obtain ⟨p', ds, hread, hdrafts, hds⟩ :=
      ih (p := ⟨p.drafts ++ [draftOf body number ins], none, ins.offset + 1⟩) hrest rfl hnodup'
        (number + 1)
    refine ⟨p', draftOf body number ins :: ds, ?_, ?_, .cons ⟨hins, number, rfl⟩ hds⟩
    · rw [List.map_cons, readLines, hstep]
      exact hread
    · rw [hdrafts, List.append_assoc, List.singleton_append]

/-! ## Labels -/

/-- **A label leads back to the position it was written for.** -/
theorem resolve_labelOf {drafts : List Draft} {offsets : List Int}
    (hoffsets : drafts.map (·.offset) = offsets) (hnodup : offsets.Nodup) {position : Nat}
    {offset : Int} (hget : offsets[position]? = some offset) (hfits : fitsWord 32 offset = true) :
    resolve drafts (labelOf offset).toList = .ok position := by
  subst hoffsets
  have hfind : drafts.findIdx? (·.offset == offset) = some position := by
    obtain ⟨hlt, heq⟩ := List.getElem?_eq_some_iff.1 hget
    refine List.findIdx?_eq_some_iff_getElem.2 ⟨by simpa using hlt, ?_, fun j hj => ?_⟩
    · rw [List.getElem_map] at heq
      simpa using heq
    · -- no draft in front of it has the offset
      have hne := List.pairwise_iff_getElem.1 hnodup j position (Nat.lt_trans hj hlt) hlt hj
      rw [heq, List.getElem_map] at hne
      simpa using hne
  rw [resolve, position?, offset?_labelOf, if_pos hfits]
  simp only [hfind]

/-- What the body has at a position decides its label. -/
theorem label_eq {position : Nat} {target : Instruction} (h : body[position]? = some target) :
    body.label position = labelOf target.offset := by
  rw [Body.label, h]

/-- **The draft of an instruction's line gives the instruction**, but for
its source place. -/
theorem resolveDraft_draftOf {drafts : List Draft}
    (hoffsets : drafts.map (·.offset) = body.map (·.offset))
    (hnodup : (body.map (·.offset)).Nodup) (hfits : ∀ ins ∈ body, fitsWord 32 ins.offset = true)
    (h : Rereads body ins) (number : Nat) :
    resolveDraft drafts (draftOf body number ins) = .ok { ins with point := none } := by
  have hlabel : ∀ position ∈ ins.targets,
      resolve drafts (body.label position).toList = .ok position := by
    intro position hposition
    have hget := List.getElem?_eq_getElem (h.targets_lt position hposition)
    rw [label_eq hget]
    refine resolve_labelOf hoffsets hnodup ?_ (hfits _ (List.getElem_mem _))
    rw [List.getElem?_map, hget]
    rfl
  have hoperand :
      resolveOperand drafts (draftOperand body.label ins.operand) = .ok ins.operand := by
    rw [Instruction.targets] at hlabel
    cases hins : ins.operand with
    | target position =>
      rw [hins] at hlabel
      rw [draftOperand, resolveOperand, hlabel position List.mem_cons_self]
      rfl
    | table positions =>
      rw [hins] at hlabel
      have hall : (positions.map fun position => (body.label position).toList).mapM
          (resolve drafts) = .ok positions := by
        refine mapM_of_forall₂ (List.forall₂_map_left_iff.2 ?_)
        exact List.forall₂_same.2 hlabel
      rw [draftOperand, resolveOperand, hall]
      rfl
    | _ => rfl
  rw [resolveDraft, draftOf]
  simp only [hoperand]

/-! ## Operands -/

/-- A slot's number is read as the slot. -/
theorem int?_repr {n : Nat} (h : fitsWord 64 n = true) :
    int? 10 64 (dropLead "V_".toList (Nat.repr n).toList) = some (n : Int) := by
  have hprefix : ¬ "V_".toList <+: Nat.toDigits 10 n := by
    rintro ⟨rest, hrest⟩
    have hmem : 'V' ∈ Nat.toDigits 10 n := by
      rw [← hrest]
      simp
    exact absurd (mem_of_mem_toDigits hmem) (by decide)
  rw [Nat.toList_repr, dropLead_eq_self hprefix, int?_eq, signed?_repr,
    Option.filter_some_pos h]

/-- **What was read without labels is read again**: from a number its own
decimal form, from a literal its bytes, from a name the name itself. A
signature is read again if its written form says so. -/
theorem operandRereads_of_ready {label : Nat → String} {kind : OperandKind} {cs : List Char}
    {operand : Operand} (hline : cs ≠ [] → OnLine cs)
    (h : readOperandOrNothing kind cs = .ok (.ready operand)) (hreal : kind ≠ .real)
    (hmethod : ∀ m, operand = .method m → Signature.read m.text = .ok m) :
    OperandRereads label kind operand := by
  rw [readOperandOrNothing] at h
  split at h
  · -- nothing stands behind the mnemonic
    split at h
    · rename_i hkind
      cases h
      exact ⟨hkind, rfl⟩
    · cases h
  rename_i hempty
  have hline := hline fun hnil => hempty (List.isEmpty_iff.2 hnil)
  cases kind with
  | nothing => cases h
  | branchTarget => cases h
  | real => exact absurd rfl hreal
  | switchTable =>
    simp only [readOperand] at h
    split at h <;> cases h
  | method =>
    simp only [readOperand] at h
    split at h
    · rename_i m hread
      cases h
      refine ⟨onLine_signature hline hread, ?_⟩
      simp only [readOperand, String.ofList_toList, hmethod m rfl]
      rfl
    · cases h
  | localSlot | argSlot =>
    simp only [readOperand] at h
    split at h
    · rename_i i hint
      cases h
      rw [int?_eq, Option.filter_eq_some_iff] at hint
      refine ⟨?_, ?_⟩
      · rw [Nat.toList_repr]
        exact (quietWord_toDigits i).onLine
      · simp only [readOperand, int?_repr hint.2]
        rfl
    · cases h
  | int32 | int64 =>
    simp only [readOperand] at h
    split at h
    · rename_i i hint
      cases h
      have hfits : fitsWord 64 i = true := (Option.filter_eq_some_iff.1 hint).2
      refine ⟨(quietWord_decimal i).onLine, ?_⟩
      simp only [readOperand, intLiteral?_decimal hfits]
      rfl
    · cases h
  | string =>
    simp only [readOperand] at h
    split at h
    · rename_i bytes hbytes
      cases h
      refine ⟨by rw [String.toList_ofList]; exact onLine_quoteBytes bytes, ?_⟩
      simp only [readOperand, String.toList_ofList, unquote?_quoteBytes]
      rfl
    · cases h
  | field | type =>
    cases h
    refine ⟨by rwa [String.toList_ofList], ?_⟩
    simp only [readOperand, String.ofList_toList]
    rfl

/-- **The labels of a switch are read from its table.** -/
theorem switchLabels_text {labels : List (List Char)} (hne : labels ≠ [])
    (h : ∀ label ∈ labels, IsWord label ∧ ',' ∉ label) :
    switchLabels (['('] ++ ([',', ' '].intercalate labels ++ [')'])) = labels := by
  have hsplit := map_trim_splitOn hne isGap_nil (List.not_mem_nil)
    fun label hlabel => ⟨(h label hlabel).1.trim_eq, (h label hlabel).2⟩
  rw [List.nil_append] at hsplit
  rw [switchLabels, dropLead_append, dropTail_append, hsplit, List.filter_eq_self]
  intro label hlabel
  simpa using (h label hlabel).1.1

/-- A branch is read again from its label. -/
theorem operandRereads_target {label : Nat → String} {position : Nat}
    (h : ∃ offset, label position = labelOf offset) :
    OperandRereads label .branchTarget (.target position) := by
  obtain ⟨offset, hoffset⟩ := h
  refine ⟨?_, rfl⟩
  rw [hoffset]
  exact (quietWord_labelOf offset).onLine

/-- **A switch is read again** from its labels. -/
theorem operandRereads_table {label : Nat → String} {positions : List Nat} (hne : positions ≠ [])
    (h : ∀ position ∈ positions, ∃ offset, label position = labelOf offset) :
    OperandRereads label .switchTable (.table positions) := by
  have hlabels : ∀ l ∈ positions.map fun position => (label position).toList,
      QuietWord l ∧ ',' ∉ l := by
    intro l hl
    obtain ⟨position, hposition, rfl⟩ := List.mem_map.1 hl
    obtain ⟨offset, hoffset⟩ := h position hposition
    rw [hoffset]
    exact ⟨quietWord_labelOf offset, fun hmem =>
      absurd (labelOf_subset offset hmem) (by decide)⟩
  have htext : ("(" ++ ", ".intercalate (positions.map label) ++ ")").toList =
      ['('] ++ ([',', ' '].intercalate
        (positions.map fun position => (label position).toList) ++ [')']) := by
    simp [String.toList_append, String.toList_intercalate, Function.comp_def]
  have hlist : Separates
      ([',', ' '].intercalate (positions.map fun position => (label position).toList)) := by
    have hsep : Separates [',', ' '] := by decide
    constructor
    · exact forall_mem_intercalate hsep.1 fun l hl => (hlabels l hl).1.quiet
    · intro hmem
      have hnewline := forall_mem_intercalate (P := (· ≠ '\n'))
        (fun c hc heq => hsep.2 (heq ▸ hc))
        (fun l hl c hc heq => (hlabels l hl).1.newline_notMem (heq ▸ hc))
      exact hnewline _ hmem rfl
  have hopen : QuietWord ['('] := by decide
  have hclose : QuietWord [')'] := by decide
  refine ⟨?_, ?_⟩
  · rw [htext]
    exact .append hopen hlist hclose.onLine
  · have hread := switchLabels_text (by simpa using hne) fun l hl =>
      ⟨(hlabels l hl).1.isWord, (hlabels l hl).2⟩
    rw [htext]
    simp only [readOperand, hread]
    rw [if_neg (by simpa using hne)]
    rfl

end Listing

namespace Body

open Listing

variable {source : String} {body : Body}

/-- **An instruction that was read is read again from its line**, if its
offset and its signature are. -/
theorem rereads_of_read (h : Body.read source = .ok body) {ins : Instruction} (hins : ins ∈ body)
    (hreal : ins.opcode.operand ≠ .real) (hfits : fitsWord 32 ins.offset = true)
    (hmethod : ∀ m, ins.method? = some m → Signature.read m.text = .ok m) : Rereads body ins := by
  obtain ⟨drafts, -, hnumbered, hbody⟩ := exists_drafts_of_read h
  obtain ⟨d, hd, hresolve⟩ := exists_mem_of_forall₂ hbody hins
  obtain ⟨next, w, hw, label, text, hfollows⟩ := hnumbered.exists_mem hd
  have hwf := wellFormed_of_read h ins hins
  -- the operand's text is what the source has behind the mnemonic
  have hline : text ≠ [] → OnLine text :=
    hfollows.spelling.onLine_operand (onLine_of_mem_written hw) hfollows.offset_written
      (quietWord_name hfollows.opcode_named).quiet
  have hlabel : ∀ position ∈ ins.targets, ∃ offset, body.label position = labelOf offset :=
    fun position hposition =>
      ⟨_, label_eq (List.getElem?_eq_getElem (hwf.targets_lt position hposition))⟩
  obtain ⟨operand, hoperand, rfl⟩ := eq_of_resolveDraft hresolve
  refine ⟨hfollows.opcode_named, hfits, ?_, hwf.targets_lt⟩
  have hread := hfollows.operand_read
  cases hdraft : d.operand with
  | ready ready =>
    rw [hdraft] at hread hoperand
    cases hoperand
    refine operandRereads_of_ready hline hread hreal fun m hm => hmethod m ?_
    rw [Instruction.method?, hm]
  | branch label =>
    rw [hdraft] at hread hoperand
    obtain ⟨position, -, rfl⟩ := map_eq_ok.1 hoperand
    rw [kind_of_labels.1 label hread]
    exact operandRereads_target (hlabel position List.mem_cons_self)
  | switch labels =>
    rw [hdraft] at hread hoperand
    obtain ⟨positions, hpositions, rfl⟩ := map_eq_ok.1 hoperand
    obtain ⟨hkind, hne⟩ := kind_of_labels.2 labels hread
    rw [hkind]
    refine operandRereads_table (fun hnil => hne ?_) hlabel
    have hlength := (lt_length_of_mapM_resolve hpositions).1
    rw [hnil] at hlength
    exact List.length_eq_zero_iff.1 hlength.symm

/-- **The listing of a body**: the written form of each instruction, one a
line. -/
def listing (body : Body) : String :=
  "\n".intercalate (body.map (·.text body))

/-- The body without its source places. -/
def withoutPoints (body : Body) : Body :=
  body.map fun ins => { ins with point := none }

/-- The lines of a listing are the instructions. -/
theorem splitOn_listing (hne : body ≠ []) (h : ∀ ins ∈ body, Rereads body ins) :
    splitOn '\n' body.listing.toList = body.map fun ins => (ins.text body).toList := by
  rw [listing, String.toList_intercalate, List.map_map]
  refine splitOn_intercalate (by simpa using hne) fun line hline => ?_
  obtain ⟨ins, hins, rfl⟩ := List.mem_map.1 hline
  exact (h ins hins).onLine_text.one_line

/-- **The listing of a body is read as the body**, if every line of it
is read as its instruction. -/
theorem read_listing (hnodup : (body.map (·.offset)).Nodup) (h : ∀ ins ∈ body, Rereads body ins) :
    Body.read body.listing = .ok body.withoutPoints := by
  by_cases hne : body = []
  · rw [hne]
    rfl
  obtain ⟨p, ds, hlines, hdrafts, hds⟩ :=
    exists_readLines_texts (p := {}) h rfl (by simpa using hnodup) 1
  rw [List.nil_append] at hdrafts
  have hoffsets : ds.map (·.offset) = body.map (·.offset) := by
    refine (map_eq_of_forall₂ hds ?_).symm
    rintro ins d ⟨-, number, rfl⟩
    rfl
  refine bind_eq_ok.2 ⟨p, ?_, ?_⟩
  · rw [splitOn_listing hne h]
    exact hlines
  · rw [hdrafts]
    refine mapM_of_forall₂ (List.forall₂_map_right_iff.2 (hds.flip.imp ?_))
    rintro d ins ⟨hins, number, rfl⟩
    have hfits : ∀ ins ∈ body, fitsWord 32 ins.offset = true := fun ins hins =>
      (h ins hins).offset_fits
    exact resolveDraft_draftOf hoffsets hnodup hfits hins number

/-- Two opcodes push a real number. -/
theorem operand_ne_real {op : Opcode} (h : op ∈ Opcode.all)
    (hname : op.name ≠ "ldc.r4" ∧ op.name ≠ "ldc.r8") : op.operand ≠ .real := by
  have table : ∀ op ∈ Opcode.all, op.operand = .real → op.name = "ldc.r4" ∨ op.name = "ldc.r8" := by
    decide +kernel
  intro hreal
  exact (table op h hreal).elim hname.1 hname.2

/-- **Listings are written and read back.** The listing of a body that was
read is accepted and gives the same body, instruction by instruction, with
the same neighbours; only the source places are not written. Real numbers
are left out, offsets have to fit 32 bits, and signatures have to be
readable from their own written form. -/
theorem read_listing_eq_withoutPoints (h : Body.read source = .ok body)
    (hreal : ∀ ins ∈ body, ins.opcode.name ≠ "ldc.r4" ∧ ins.opcode.name ≠ "ldc.r8")
    (hoffset : ∀ ins ∈ body, -0x80000000 ≤ ins.offset ∧ ins.offset < 0x80000000)
    (hmethod : ∀ ins ∈ body, ∀ m, ins.method? = some m → Signature.read m.text = .ok m) :
    Body.read body.listing = .ok body.withoutPoints ∧
      ∀ i, body.withoutPoints.next? i = body.next? i ∧
        body.withoutPoints.previous? i = body.previous? i := by
  have hreads : ∀ ins ∈ body, Rereads body ins := by
    intro ins hins
    have hfits : fitsWord 32 ins.offset = true := by
      simp only [fitsWord, Bool.and_eq_true, decide_eq_true_eq]
      exact (hoffset ins hins).symm
    have hmem := (wellFormed_of_read h ins hins).opcode_mem
    exact rereads_of_read h hins (operand_ne_real hmem (hreal ins hins)) hfits (hmethod ins hins)
  have hlength : body.withoutPoints.length = body.length := List.length_map _
  refine ⟨read_listing (nodup_offsets_of_read h) hreads, fun i => ⟨?_, ?_⟩⟩
  · rw [next?, next?, hlength]
  · cases i with
    | zero => rfl
    | succ i => rw [previous?, previous?, hlength]

/-- A listing whose parts are spelled in other ways than they are
written. -/
def looseListing : String :=
  ".line 1 f\nIL_5: ldstr \"//\" // x\ncall void  T::F(ref X)\nswitch (5)"

def looseBody : Body :=
  [⟨5, .withOperand "ldstr" 0 1 .string, .string [47, 47], some ⟨"f", 1⟩⟩,
   ⟨6, .calling "call", .method ⟨"T", "F", false, "void", [⟨"X", .byRef⟩]⟩, none⟩,
   ⟨7, { Opcode.branching "switch" .condBranch 1 with operand := .switchTable }, .table [0], none⟩]

/-- The theorem at a listing. -/
theorem read_listing_eq_withoutPoints_looseListing :
    Body.read looseListing = .ok looseBody ∧
    Body.read looseBody.listing = .ok looseBody.withoutPoints ∧
      ∀ i, looseBody.withoutPoints.next? i = looseBody.next? i ∧
        looseBody.withoutPoints.previous? i = looseBody.previous? i := by
  have hread : Body.read looseListing = .ok looseBody := by decide +kernel
  have hmethod : ∀ ins ∈ looseBody, ∀ m ∈ ins.method?, Signature.read m.text = .ok m := by
    decide +kernel
  exact ⟨hread, read_listing_eq_withoutPoints hread (by decide) (by decide) hmethod⟩

end Body

end SmellCheck

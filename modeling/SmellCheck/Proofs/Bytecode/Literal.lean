import SmellCheck.Proofs.Bytecode.RoundTrip
/-!
# String literals on a line

A quoted byte string comes through a listing as it is. Its line may have a
label in front and a comment behind, and the bytes may look like either:
the label is cut off at a colon in front of the literal, the comment
begins behind its closing quote, and what is left between them is
unquoted to the same bytes (`Body.read_literal_line`).
-/

namespace SmellCheck

open Text

namespace Listing

/-! ## What stands around an instruction -/

/-- What may stand behind an instruction on its line: nothing, or a space
and a comment. -/
inductive Back : List Char → Prop
  | bare : Back []
  | comment (text : List Char) : Back (" //".toList ++ text)

/-- Of what stands behind an instruction at most a blank is left. -/
theorem Back.isGap_stripComment {back : List Char} (h : Back back) :
    IsGap (stripComment false back) := by
  cases h with
  | bare => exact isGap_nil
  | comment text => exact isGap_singleton rfl

/-- **A comment is no part of what a line says**, behind a text that leaves
no string open. -/
theorem content_append_back {cs back : List Char} (htrim : trim cs = cs)
    (hclosed : (Scan.start false).run cs = some (Scan.start false)) (hback : Back back) :
    content (cs ++ back) = cs := by
  have hgap : trim ([] ++ cs ++ stripComment false back) = trim cs :=
    trim_append_gap isGap_nil hback.isGap_stripComment
  rw [content, stripComment_append hclosed]
  exact hgap.trans htrim

theorem LabelWritten.quiet {label : List Char} {offset : Int} (h : LabelWritten label offset) :
    Quiet label := by
  obtain ⟨digits, gap, rfl, hdigits, hgap⟩ := h
  have halphabet : Quiet ("IL_".toList ++ hexAlphabet) := by decide
  exact .append (fun c hc => halphabet c (label_subset hdigits hc)) (quiet_of_isGap hgap)

namespace Front

variable {next offset : Int} {front : List Char}

/-- What stands in front of an instruction opens no string. -/
theorem quiet (h : Front next front offset) : Quiet front := by
  cases h with
  | bare => exact quiet_nil
  | labelled hlabel hgap => exact hlabel.quiet.append (.cons (by decide) (quiet_of_isGap hgap))

/-- And does not begin with a blank. -/
theorem trim_append (h : Front next front offset) {statement : List Char} (hne : statement ≠ [])
    (htrim : trim statement = statement) : trim (front ++ statement) = front ++ statement := by
  cases h with
  | bare => exact htrim
  | @labelled _ behind _ hlabel =>
    obtain ⟨digits, gap, rfl, hdigits, -⟩ := hlabel
    have hword := isWord_label hdigits
    have hbetween := trim_between (gap ++ ':' :: behind) hword.1 hword.trim_eq hne htrim
    simpa using hbetween

theorem fitsWord (h : Front next front offset) (hnext : Text.fitsWord 32 next = true) :
    Text.fitsWord 32 offset = true := by
  cases h with
  | bare => exact hnext
  | labelled hlabel => exact hlabel.fitsWord

end Front

/-! ## Literals -/

/-- The instruction that pushes a byte string. -/
def pushString (offset : Int) (bytes : Bytes) : Instruction :=
  ⟨offset, .withOperand "ldstr" 0 1 .string, .string bytes, none⟩

theorem statementText_pushString (body : Body) (offset : Int) (bytes : Bytes) :
    statementText body (pushString offset bytes) = "ldstr ".toList ++ quoteBytes bytes := by
  have htext : statementText body (pushString offset bytes) =
      "ldstr".toList ++ ' ' :: (String.ofList (quoteBytes bytes)).toList := rfl
  have hmnemonic : "ldstr ".toList = "ldstr".toList ++ [' '] := by decide
  rw [hmnemonic, List.append_assoc]
  exact htext.trans (congrArg ("ldstr".toList ++ ' ' :: ·) String.toList_ofList)

/-- **A literal is read from its line.** -/
theorem rereads_pushString {offset : Int} (h : fitsWord 32 offset = true) (body : Body)
    (bytes : Bytes) : Rereads body (pushString offset bytes) where
  opcode_named := by
    have hname : Opcode.ofName? "ldstr" = some (.withOperand "ldstr" 0 1 .string) := by
      decide +kernel
    exact hname
  offset_fits := h
  operand_rereads := by
    have hkind : OperandKind.string ≠ .real := by decide
    have hread :
        readOperandOrNothing .string (quoteBytes bytes) = .ok (.ready (.string bytes)) := by
      have hne : ¬ (quoteBytes bytes).isEmpty = true := by simp [quoteBytes]
      rw [readOperandOrNothing, if_neg hne]
      simp only [readOperand, unquote?_quoteBytes]
    exact operandRereads_of_ready (fun _ => onLine_quoteBytes bytes) hread hkind
      fun m hm => by cases hm
  targets_lt := fun position hposition => absurd hposition List.not_mem_nil

/-- **The line of a literal says what the literal is**, whatever stands in
front of it and behind. -/
theorem content_literal {next offset : Int} {front back : List Char}
    (hfront : Front next front offset) (hback : Back back) (bytes : Bytes) :
    content (front ++ ("ldstr ".toList ++ quoteBytes bytes) ++ back) =
      front ++ ("ldstr ".toList ++ quoteBytes bytes) := by
  have hmnemonic : QuietWord "ldstr".toList := by decide
  have hline : OnLine ("ldstr".toList ++ ([' '] ++ quoteBytes bytes)) :=
    .append hmnemonic (by decide) (onLine_quoteBytes bytes)
  -- the scanner sleeps up to the opening quote, and is outside again behind the closing one
  have hquiet : Quiet "ldstr ".toList := by decide
  have hclosed : Scan.outside.run (front ++ ("ldstr ".toList ++ quoteBytes bytes)) =
      some .outside := by
    rw [Scan.run_outside_append hfront.quiet, Scan.run_outside_append hquiet,
      Scan.run_outside_quoteBytes]
  exact content_append_back (hfront.trim_append hline.ne_nil hline.trimmed) hclosed hback

end Listing

namespace Body

open Listing

/-- **String literals come through a listing.** A line that pushes a quoted
byte string, with or without a label in front and a comment behind, is read
as one instruction, and its operand is the byte string. -/
theorem read_literal_line (bytes : Bytes) {front back : List Char} {offset : Int}
    (hfront : Front 0 front offset) (hback : Back back) (hline : '\n' ∉ front ++ back) :
    Body.read (String.ofList (front ++ ("ldstr ".toList ++ quoteBytes bytes) ++ back)) =
      .ok [pushString offset bytes] := by
  have hrereads : Rereads [pushString offset bytes] (pushString offset bytes) :=
    rereads_pushString (hfront.fitsWord rfl) _ bytes
  have hcontent : content (front ++ ("ldstr ".toList ++ quoteBytes bytes) ++ back) =
      front ++ statementText [pushString offset bytes] (pushString offset bytes) := by
    rw [content_literal hfront hback, statementText_pushString]
  have hread := hrereads.readLine_of_content (p := {}) hfront hcontent rfl List.not_mem_nil 1
  have hnewline : '\n' ∉ front ++ ("ldstr ".toList ++ quoteBytes bytes) ++ back := by
    simp only [List.mem_append, not_or] at hline ⊢
    exact ⟨⟨hline.1, by decide, newline_notMem_quoteBytes bytes⟩, hline.2⟩
  have hsplit := splitOn_intercalate (List.cons_ne_nil _ []) (List.forall_mem_singleton.2 hnewline)
  rw [List.intercalate_singleton] at hsplit
  refine bind_eq_ok.2
    ⟨⟨[draftOf [pushString offset bytes] 1 (pushString offset bytes)], none, offset + 1⟩, ?_, rfl⟩
  rw [String.toList_ofList, hsplit, readLines, hread]
  rfl

/-- A literal that looks like a label, a comment and the end of a string,
with a newline and a stray byte. -/
def trickyBytes : Bytes :=
  [0x3a, 0x2f, 0x2f, 0x22, 0x5c, 0x0a, 0xff]

/-- The theorem at a line with a label in front and a comment behind. -/
theorem read_literal_line_trickyBytes :
    Front 0 "IL_-1 : ".toList (-1) ∧ Back " // \"//\\".toList ∧
    Body.read (String.ofList ("IL_-1 : ".toList ++ ("ldstr ".toList ++ quoteBytes trickyBytes) ++
      " // \"//\\".toList)) = .ok [pushString (-1) trickyBytes] := by
  have hlabel : LabelWritten "IL_-1 ".toList (-1) :=
    ⟨"-1".toList, [' '], by decide, by decide, isGap_singleton rfl⟩
  have hfront : Front 0 "IL_-1 : ".toList (-1) :=
    .labelled hlabel (isGap_singleton rfl : IsGap [' '])
  have hback : Back " // \"//\\".toList := .comment " \"//\\".toList
  exact ⟨hfront, hback, read_literal_line trickyBytes hfront hback (by decide)⟩

end Body

end SmellCheck

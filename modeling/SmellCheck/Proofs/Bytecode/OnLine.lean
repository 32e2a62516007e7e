import SmellCheck.Proofs.Bytecode.Respelling
import SmellCheck.Proofs.Bytecode.Transcript
/-!
# Texts that stand on a line

What is trimmed and has neither a newline nor a comment stands on a line
as it is. Labels, mnemonics, numbers and literals do, and so does
everything that was read from a listing: its lines, the operands behind
the mnemonics, and the signatures that they give.
-/

namespace SmellCheck.Listing

open Text

/-- **A text that stands on a line** as it is. -/
structure OnLine (cs : List Char) : Prop where
  ne_nil : cs ≠ []
  trimmed : trim cs = cs
  commentFree : CommentFree cs
  one_line : '\n' ∉ cs

/-- A word that keeps quiet. -/
structure QuietWord (cs : List Char) : Prop where
  isWord : IsWord cs
  quiet : Quiet cs

instance : DecidablePred QuietWord := fun cs =>
  decidable_of_iff (IsWord cs ∧ Quiet cs) ⟨fun h => ⟨h.1, h.2⟩, fun h => ⟨h.1, h.2⟩⟩

/-- A text of characters that make up such a word. -/
theorem QuietWord.of_subset {cs alphabet : List Char} (h : QuietWord alphabet) (hne : cs ≠ [])
    (hcs : cs ⊆ alphabet) : QuietWord cs :=
  ⟨⟨hne, fun c hc => h.isWord.2 c (hcs hc)⟩, fun c hc => h.quiet c (hcs hc)⟩

theorem QuietWord.newline_notMem {cs : List Char} (h : QuietWord cs) : '\n' ∉ cs := fun hmem =>
  absurd (h.isWord.2 _ hmem) (by decide)

theorem QuietWord.onLine {cs : List Char} (h : QuietWord cs) : OnLine cs where
  ne_nil := h.isWord.1
  trimmed := h.isWord.trim_eq
  commentFree := commentFree_of_quiet h.quiet
  one_line := h.newline_notMem

/-- A quiet word in front, and something that separates. -/
theorem OnLine.append {front middle cs : List Char} (hfront : QuietWord front)
    (hmiddle : Separates middle) (h : OnLine cs) : OnLine (front ++ (middle ++ cs)) where
  ne_nil hnil := hfront.isWord.1 (List.append_eq_nil_iff.1 hnil).1
  trimmed := trim_between middle hfront.isWord.1 hfront.isWord.trim_eq h.ne_nil h.trimmed
  commentFree := by
    rw [commentFree_append_iff hfront.quiet, commentFree_append_iff hmiddle.1]
    exact h.commentFree
  one_line hmem := by
    rcases List.mem_append.1 hmem with hmem | hmem
    · exact hfront.newline_notMem hmem
    rcases List.mem_append.1 hmem with hmem | hmem
    · exact hmiddle.2 hmem
    · exact h.one_line hmem

/-- A line that stands as it is says what it is. -/
theorem OnLine.content_eq {cs : List Char} (h : OnLine cs) : content cs = cs := by
  rw [content, stripComment_eq_self h.commentFree, h.trimmed]

/-! ## What is written -/

/-- The characters of labels. -/
def labelAlphabet : List Char :=
  "IL_-0123456789abcdef".toList

theorem labelOf_subset (offset : Int) : (labelOf offset).toList ⊆ labelAlphabet := by
  intro c hc
  have halphabet : labelAlphabet = "IL_".toList ++ "-0123456789abcdef".toList := rfl
  rw [toList_labelOf] at hc
  rw [halphabet]
  exact List.mem_append.2 ((List.mem_append.1 hc).imp id mem_of_mem_hexInt)

theorem quietWord_labelOf (offset : Int) : QuietWord (labelOf offset).toList := by
  have halphabet : QuietWord labelAlphabet := by decide
  refine halphabet.of_subset ?_ (labelOf_subset offset)
  rw [toList_labelOf]
  exact List.append_ne_nil_of_left_ne_nil (by decide) _

theorem quietWord_name {op : Opcode} (h : Opcode.ofName? op.name = some op) :
    QuietWord op.name.toList := by
  have table : ∀ op ∈ Opcode.all, QuietWord op.name.toList := by decide +kernel
  exact table op (Opcode.mem_all_of_ofName? h)

theorem quietWord_toDigits (n : Nat) : QuietWord (Nat.toDigits 10 n) := by
  have halphabet : QuietWord "0123456789".toList := by decide
  exact halphabet.of_subset Nat.toDigits_ne_nil fun c hc => mem_of_mem_toDigits hc

theorem quietWord_decimal (i : Int) : QuietWord (decimal i).toList := by
  have halphabet : QuietWord ('-' :: "0123456789".toList) := by decide
  rw [toList_decimal]
  refine halphabet.of_subset (List.append_ne_nil_of_right_ne_nil _ Nat.toDigits_ne_nil) ?_
  intro c hc
  rcases List.mem_append.1 hc with hc | hc
  · split at hc
    · rw [List.mem_singleton.1 hc]
      exact List.mem_cons_self
    · exact absurd hc List.not_mem_nil
  · exact List.mem_cons_of_mem '-' (mem_of_mem_toDigits hc)

theorem onLine_quoteBytes (bs : Bytes) : OnLine (quoteBytes bs) where
  ne_nil := by simp [quoteBytes]
  trimmed := by
    have hquote : trim ['"'] = ['"'] := by decide
    exact trim_between ((pieces bs).flatMap quotePiece) (by simp) hquote (by simp) hquote
  commentFree := commentFree_quoteBytes bs
  one_line := newline_notMem_quoteBytes bs

/-- The text of a signature stands on a line if the text that it was read
from does. -/
theorem onLine_signature {m : Signature} {cs : List Char} (h : OnLine cs)
    (hread : Signature.read (String.ofList cs) = .ok m) : OnLine m.text.toList := by
  have hrespaced := Signature.respaced_text h.trimmed hread
  refine ⟨fun hnil => h.ne_nil ?_, Signature.trim_text_of_read h.trimmed hread,
    hrespaced.commentFree h.commentFree, hrespaced.newline_notMem h.one_line⟩
  rw [hnil] at hrespaced
  exact hrespaced.eq_nil

/-! ## Lines that were read -/

theorem line_mem_of_mem_writtenAfter {lines directives : List (List Char)} {w : Written}
    (h : w ∈ writtenAfter directives lines) : w.line ∈ lines := by
  induction lines generalizing directives with
  | nil => exact absurd h List.not_mem_nil
  | cons line lines ih =>
    rw [writtenAfter] at h
    split at h
    · exact List.mem_cons_of_mem line (ih h)
    · rcases List.mem_cons.1 h with rfl | h
      · exact List.mem_cons_self
      · exact List.mem_cons_of_mem line (ih h)

/-- **What is written in a listing stands on a line.** -/
theorem onLine_of_mem_written {source : String} {w : Written} (h : w ∈ written source) :
    OnLine w.line := by
  obtain ⟨hmem, hne⟩ := List.mem_filter.1 (line_mem_of_mem_writtenAfter h)
  obtain ⟨raw, hraw, hline⟩ := List.mem_map.1 hmem
  rw [← hline] at hne ⊢
  exact
    { ne_nil := by simpa using hne
      trimmed := trim_trim _
      commentFree := (commentFree_stripComment raw).trim
      one_line := fun hnewline =>
        notMem_of_mem_splitOn hraw (mem_of_mem_stripComment (mem_of_mem_trim hnewline)) }

/-- A label that has a value keeps quiet. -/
theorem quiet_of_hexValue? {label : List Char} {i : Int} (h : hexValue? label = some i) :
    Quiet label := by
  have halphabet : Quiet hexAlphabet := by decide
  have hrest : Quiet (dropLead "IL_".toList label) := fun c hc =>
    halphabet c (subset_hexAlphabet_of_signed? h hc)
  by_cases hlead : "IL_".toList <+: label
  · obtain ⟨rest, rfl⟩ := hlead
    rw [dropLead_append] at hrest
    exact .append (by decide) hrest
  · rwa [dropLead_eq_self hlead] at hrest

/-- Quiet characters stand in front of an operand. -/
theorem Statement.exists_front {cs mnemonic operand : List Char}
    (h : Statement cs mnemonic operand) (hquiet : Quiet mnemonic) (hne : operand ≠ []) :
    ∃ front, cs = front ++ operand ∧ Quiet front ∧ trim operand = operand := by
  cases h with
  | alone => exact absurd rfl hne
  | @withOperand _ gap _ hgap _ htrim =>
    refine ⟨mnemonic ++ ' ' :: gap, by simp, ?_, htrim⟩
    exact hquiet.append (.cons (by decide) (quiet_of_isGap hgap))

/-- **An operand stands on a line** as its line does. -/
theorem Spelling.onLine_operand {line mnemonic operand : List Char} {label : Option (List Char)}
    {next offset : Int} (h : Spelling line label mnemonic operand) (hline : OnLine line)
    (hlabel : OffsetWritten next label offset) (hquiet : Quiet mnemonic)
    (hne : operand ≠ []) : OnLine operand := by
  have hfront : ∃ front, line = front ++ operand ∧ Quiet front ∧ trim operand = operand := by
    cases h with
    | bare h => exact h.exists_front hquiet hne
    | @labelled label before behind statement _ _ hbefore hbehind h =>
      obtain ⟨front, rfl, hfront, htrim⟩ := h.exists_front hquiet hne
      refine ⟨label ++ before ++ ':' :: (behind ++ front), by simp, ?_, htrim⟩
      have hlabelled : Quiet (label ++ before) :=
        (quiet_of_hexValue? hlabel).append (quiet_of_isGap hbefore)
      exact hlabelled.append (.cons (by decide) ((quiet_of_isGap hbehind).append hfront))
  obtain ⟨front, rfl, hfront, htrim⟩ := hfront
  exact
    { ne_nil := hne
      trimmed := htrim
      commentFree := (commentFree_append_iff hfront).1 hline.commentFree
      one_line := fun hmem => hline.one_line (List.mem_append_right front hmem) }

end SmellCheck.Listing

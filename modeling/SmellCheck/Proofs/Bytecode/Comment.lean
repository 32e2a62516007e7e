import SmellCheck.Bytecode.Listing
import SmellCheck.Proofs.Text.Cutting
import SmellCheck.Proofs.Text.Quoted
/-!
# Lines without comments

A scanner that goes over a line character by character says which lines
have no comment. It accepts what is left when a comment is stripped, and
stripping leaves alone what it accepts. Behind a text that leaves no
string open, a comment is stripped whatever it says
(`stripComment_append`). Characters that neither open nor
escape anything bring it to rest wherever it is, so that one run of them
may stand for another (`Respaced`). Quoted literals are accepted
whatever they hold, and leave no string open.
-/

namespace SmellCheck.Listing

open Text

/-! ## The scanner -/

/-- Where the scanner is: outside of strings, behind a slash there,
inside of a string, or behind a backslash there. -/
inductive Scan where
  | outside
  | slash
  | inside
  | escape
  deriving DecidableEq

/-- One character on. Two slashes outside of strings are refused. -/
def Scan.step : Scan → Char → Option Scan
  | outside, c => if c = '"' then some inside else if c = '/' then some slash else some outside
  | slash, c => if c = '"' then some inside else if c = '/' then none else some outside
  | inside, c => if c = '"' then some outside else if c = '\\' then some escape else some inside
  | escape, _ => some inside

/-- Over a text. -/
def Scan.run (s : Scan) : List Char → Option Scan
  | [] => some s
  | c :: cs => (s.step c).bind fun t => t.run cs

theorem Scan.run_append (s : Scan) (cs ds : List Char) :
    s.run (cs ++ ds) = (s.run cs).bind fun t => t.run ds := by
  induction cs generalizing s with
  | nil => rfl
  | cons c cs ih =>
    rw [List.cons_append, run, run]
    cases s.step c with
    | none => rfl
    | some t => exact ih t

/-- The text has no comment: no two slashes outside of its strings. -/
def CommentFree (cs : List Char) : Prop :=
  (Scan.outside.run cs).isSome = true

instance : DecidablePred CommentFree := fun cs =>
  inferInstanceAs (Decidable ((Scan.outside.run cs).isSome = true))

/-- Where the scanner begins. -/
def Scan.start (inString : Bool) : Scan :=
  if inString then inside else outside

/-- Nothing is refused at the beginning. -/
theorem Scan.exists_step_start (inString : Bool) (c : Char) :
    ∃ t, (start inString).step c = some t := by
  cases inString with
  | false =>
    change ∃ t, outside.step c = some t
    rw [step]
    split_ifs <;> exact ⟨_, rfl⟩
  | true =>
    change ∃ t, inside.step c = some t
    rw [step]
    split_ifs <;> exact ⟨_, rfl⟩

theorem Scan.start_injective : Function.Injective start := by
  intro b b' h
  cases b <;> cases b' <;> first | rfl | cases h

/-- A character toggles the scanner as it toggles the stripping, but for a
backslash in a string and a slash outside. -/
theorem Scan.step_start {inString : Bool} {c : Char} (hescape : c = '\\' → inString = false)
    (hslash : c = '/' → inString = true) :
    (start inString).step c = some (start (if c = '"' then !inString else inString)) := by
  by_cases hquote : c = '"'
  · cases inString <;> simp [start, step, hquote]
  cases inString with
  | false =>
    have hc : c ≠ '/' := fun hc => Bool.noConfusion (hslash hc)
    simp [start, step, hquote, hc]
  | true =>
    have hc : c ≠ '\\' := fun hc => Bool.noConfusion (hescape hc)
    simp [start, step, hquote, hc]

/-- A last character that leaves nothing pending is neither of the two. -/
theorem Scan.of_run_start_singleton {inString inString' : Bool} {c : Char}
    (h : (start inString).run [c] = some (start inString')) :
    inString' = (if c = '"' then !inString else inString) ∧ (c = '\\' → inString = false) ∧
      (c = '/' → inString = true) := by
  have hescape : c = '\\' → inString = false := by
    rintro rfl
    cases inString with
    | false => rfl
    | true => cases inString' <;> cases h
  have hslash : c = '/' → inString = true := by
    rintro rfl
    cases inString with
    | false => cases inString' <;> cases h
    | true => rfl
  rw [run, step_start hescape hslash] at h
  exact ⟨start_injective (Option.some.inj h).symm, hescape, hslash⟩

/-- Where more follows, a slash matters only in front of another one. -/
theorem Scan.run_start_cons_cons {inString : Bool} {c d : Char} {cs : List Char}
    (hescape : c ≠ '\\') (hslash : c = '/' → d ≠ '/') :
    (start inString).run (c :: d :: cs) =
      (start (if c = '"' then !inString else inString)).run (d :: cs) := by
  by_cases hc : c = '/'
  · cases inString <;> simp [start, run, step, hc, hslash hc]
  · rw [run, step_start (fun h => absurd h hescape) fun h => absurd h hc]
    rfl

/-- Whether the scanner goes on does not hang on such a character. -/
theorem Scan.isSome_run_cons {inString : Bool} {c : Char} {cs : List Char}
    (hescape : c = '\\' → cs = []) (hslash : c = '/' → cs.head? ≠ some '/') :
    ((start inString).run (c :: cs)).isSome =
      ((start (if c = '"' then !inString else inString)).run cs).isSome := by
  rcases cs with _ | ⟨d, cs⟩
  · obtain ⟨t, ht⟩ := exists_step_start inString c
    have hrun : (start inString).run [c] = some t := by
      rw [run, ht]
      rfl
    rw [hrun]
    rfl
  · rw [run_start_cons_cons (fun hc => List.cons_ne_nil d cs (hescape hc)) fun hc hd => ?_]
    exact hslash hc (by rw [hd]; rfl)

/-- **Stripping leaves alone what has no comment.** -/
theorem stripComment_of_run {inString : Bool} {cs : List Char}
    (h : ((Scan.start inString).run cs).isSome = true) : stripComment inString cs = cs := by
  fun_induction stripComment inString cs with
  | case1 => rfl
  | case2 c cs ih => rw [ih h]
  | case3 inString c cs hout ih =>
    obtain rfl : inString = false := by simpa using hout
    rw [ih h]
  | case4 cs ih => rw [ih h]
  | case5 inString cs hout =>
    obtain rfl : inString = false := by simpa using hout
    cases h
  | case6 inString c cs hescape hslash ih =>
    rw [Scan.isSome_run_cons (fun hc => ?_) fun hc hhead => ?_] at h
    · rw [ih h]
    · rcases cs with _ | ⟨d, cs⟩
      · rfl
      · exact (hescape d cs hc rfl).elim
    · obtain ⟨cs, rfl⟩ := List.head?_eq_some_iff.1 hhead
      exact hslash cs hc rfl

/-- One character on, which begins neither an escape nor a comment. -/
theorem stripComment_cons {inString : Bool} {c : Char} {cs : List Char}
    (hescape : c = '\\' → inString = false)
    (hslash : c = '/' → inString = true ∨ cs.head? ≠ some '/') :
    stripComment inString (c :: cs) =
      c :: stripComment (if c = '"' then !inString else inString) cs := by
  rw [stripComment.eq_def]
  split
  · rename_i heq
    cases heq
  · rename_i d ds heq
    cases heq
    rw [hescape rfl]
    rfl
  · rename_i ds heq
    cases heq
    rcases hslash rfl with rfl | hhead
    · rfl
    · exact absurd rfl hhead
  · rename_i heq
    cases heq
    rfl

/-- **Stripping goes on behind a text** that leaves nothing pending, inside
of a string or outside as the text has left it. -/
theorem stripComment_append {inString inString' : Bool} {cs : List Char}
    (h : (Scan.start inString).run cs = some (Scan.start inString')) (ds : List Char) :
    stripComment inString (cs ++ ds) = cs ++ stripComment inString' ds := by
  fun_induction stripComment inString cs with
  | case1 inString =>
    rw [Scan.start_injective (Option.some.inj h)]
    rfl
  | case2 c cs ih =>
    rw [List.cons_append, List.cons_append, stripComment, if_pos rfl, ih h]
    rfl
  | case3 inString c cs hout ih =>
    obtain rfl : inString = false := by simpa using hout
    rw [List.cons_append, List.cons_append, stripComment, if_neg hout, ← List.cons_append, ih h]
    rfl
  | case4 cs ih =>
    rw [List.cons_append, List.cons_append, stripComment, if_pos rfl, ← List.cons_append, ih h]
    rfl
  | case5 inString cs hout =>
    obtain rfl : inString = false := by simpa using hout
    cases h
  | case6 inString c cs hescape hslash ih =>
    rcases cs with _ | ⟨d, cs⟩
    · -- a slash here would be pending, so none of `ds` makes a comment of it
      obtain ⟨rfl, hc, hc'⟩ := Scan.of_run_start_singleton h
      exact stripComment_cons hc fun hslash => .inl (hc' hslash)
    · have hc : c ≠ '\\' := fun hc => hescape d cs hc rfl
      have hd : c = '/' → d ≠ '/' := fun hc hd => hslash cs hc (by rw [hd])
      rw [Scan.run_start_cons_cons hc hd] at h
      rw [List.cons_append, stripComment_cons (fun hc' => absurd hc' hc) fun hc' => .inr ?_, ih h]
      · rfl
      · simpa using hd hc'

/-- What is stripped begins as the line does, if anything is left. -/
theorem head?_stripComment {inString : Bool} {c : Char} {cs : List Char}
    (h : (stripComment inString cs).head? = some c) : cs.head? = some c := by
  rw [stripComment.eq_def] at h
  split at h
  · exact h
  · split at h <;> exact h
  · split at h
    · exact h
    · cases h
  · exact h

/-- **What is left of a line has no comment.** -/
theorem isSome_run_stripComment (inString : Bool) (cs : List Char) :
    ((Scan.start inString).run (stripComment inString cs)).isSome = true := by
  fun_induction stripComment inString cs with
  | case1 => rfl
  | case2 c cs ih => exact ih
  | case3 inString c cs hout ih =>
    obtain rfl : inString = false := by simpa using hout
    exact ih
  | case4 cs ih => exact ih
  | case5 inString cs hout => rfl
  | case6 inString c cs hescape hslash ih =>
    rw [Scan.isSome_run_cons (fun hc => ?_) fun hc hhead => ?_]
    · exact ih
    · rcases cs with _ | ⟨d, cs⟩
      · rw [stripComment]
      · exact (hescape d cs hc rfl).elim
    · obtain ⟨cs, rfl⟩ := List.head?_eq_some_iff.1 (head?_stripComment hhead)
      exact hslash cs hc rfl

theorem stripComment_eq_self {cs : List Char} (h : CommentFree cs) : stripComment false cs = cs :=
  stripComment_of_run h

theorem commentFree_stripComment (cs : List Char) : CommentFree (stripComment false cs) :=
  isSome_run_stripComment false cs

theorem CommentFree.of_append {cs rest : List Char} (h : CommentFree (cs ++ rest)) :
    CommentFree cs := by
  rw [CommentFree, Scan.run_append] at h
  exact Option.isSome_of_isSome_bind h

/-- Nothing is added to a line. -/
theorem mem_of_mem_stripComment {inString : Bool} {c : Char} {cs : List Char}
    (h : c ∈ stripComment inString cs) : c ∈ cs := by
  fun_induction stripComment inString cs with
  | case1 => exact h
  | case2 d cs ih => grind
  | case3 inString d cs _ ih => grind
  | case4 cs ih => grind
  | case5 => exact absurd h List.not_mem_nil
  | case6 inString d cs _ _ ih => grind

/-! ## Characters that keep quiet -/

/-- The character neither opens nor escapes anything. -/
def IsQuiet (c : Char) : Prop :=
  c ≠ '"' ∧ c ≠ '\\' ∧ c ≠ '/'

instance : DecidablePred IsQuiet := fun c =>
  inferInstanceAs (Decidable (c ≠ '"' ∧ c ≠ '\\' ∧ c ≠ '/'))

/-- A text of such characters. -/
def Quiet (cs : List Char) : Prop :=
  ∀ c ∈ cs, IsQuiet c

instance : DecidablePred Quiet := fun cs =>
  decidable_of_iff ((cs.all fun c => decide (IsQuiet c)) = true) (by simp [Quiet])

theorem quiet_nil : Quiet [] := fun _ hc => absurd hc List.not_mem_nil

theorem Quiet.cons {c : Char} {cs : List Char} (hc : IsQuiet c) (hcs : Quiet cs) :
    Quiet (c :: cs) :=
  List.forall_mem_cons.2 ⟨hc, hcs⟩

theorem Quiet.append {cs ds : List Char} (hcs : Quiet cs) (hds : Quiet ds) : Quiet (cs ++ ds) :=
  List.forall_mem_append.2 ⟨hcs, hds⟩

/-- Blanks keep quiet. -/
theorem quiet_of_isGap {cs : List Char} (h : IsGap cs) : Quiet cs := by
  intro c hc
  have hblank := h c hc
  refine ⟨?_, ?_, ?_⟩ <;> rintro rfl <;> cases hblank

/-- A quiet text that may be written between others on a line. -/
def Separates (cs : List Char) : Prop :=
  Quiet cs ∧ '\n' ∉ cs

instance : DecidablePred Separates := fun cs =>
  inferInstanceAs (Decidable (Quiet cs ∧ '\n' ∉ cs))

theorem separates_nil : Separates [] :=
  ⟨quiet_nil, List.not_mem_nil⟩

theorem Separates.append {cs ds : List Char} (hcs : Separates cs) (hds : Separates ds) :
    Separates (cs ++ ds) :=
  ⟨hcs.1.append hds.1, fun hmem => (List.mem_append.1 hmem).elim hcs.2 hds.2⟩

/-- Where the scanner is behind a character that keeps quiet. -/
def Scan.settled : Scan → Scan
  | outside | slash => outside
  | inside | escape => inside

theorem Scan.step_of_isQuiet {s : Scan} {c : Char} (h : IsQuiet c) : s.step c = some s.settled := by
  obtain ⟨hquote, hescape, hslash⟩ := h
  cases s <;> simp [step, settled, hquote, hescape, hslash]

theorem Scan.settled_settled (s : Scan) : s.settled.settled = s.settled := by
  cases s <;> rfl

/-- A run of quiet characters settles the scanner, however long it is. -/
theorem Scan.run_of_quiet {s : Scan} {cs : List Char} (hne : cs ≠ []) (h : Quiet cs) :
    s.run cs = some s.settled := by
  induction cs generalizing s with
  | nil => exact absurd rfl hne
  | cons c cs ih =>
    obtain ⟨hc, hcs⟩ := List.forall_mem_cons.1 h
    rw [run, step_of_isQuiet hc, Option.bind_some]
    by_cases hnil : cs = []
    · rw [hnil]
      rfl
    · rw [ih hnil hcs, settled_settled]

/-- Outside of strings, quiet characters in front do not matter. -/
theorem Scan.run_outside_append {cs : List Char} (h : Quiet cs) (rest : List Char) :
    outside.run (cs ++ rest) = outside.run rest := by
  by_cases hne : cs = []
  · rw [hne, List.nil_append]
  · rw [run_append, run_of_quiet hne h]
    rfl

theorem commentFree_append_iff {cs rest : List Char} (h : Quiet cs) :
    CommentFree (cs ++ rest) ↔ CommentFree rest := by
  rw [CommentFree, CommentFree, Scan.run_outside_append h]

theorem commentFree_of_quiet {cs : List Char} (h : Quiet cs) : CommentFree cs := by
  rw [← List.append_nil cs, commentFree_append_iff h]
  rfl

theorem CommentFree.trim {cs : List Char} (h : CommentFree cs) : CommentFree (trim cs) := by
  obtain ⟨left, right, hleft, -, hcs⟩ := exists_gaps cs
  rw [hcs, List.append_assoc, commentFree_append_iff (quiet_of_isGap hleft)] at h
  exact h.of_append

/-! ## Respacing -/

/-- Some runs of quiet characters are exchanged for others. -/
inductive Respaced : List Char → List Char → Prop
  | nil : Respaced [] []
  | cons {c : Char} {cs ds : List Char} (h : Respaced cs ds) : Respaced (c :: cs) (c :: ds)
  | exchange {gap gap' cs ds : List Char} (hne : gap ≠ []) (hne' : gap' ≠ [])
      (hgap : Quiet gap) (hgap' : Separates gap') (h : Respaced cs ds) :
      Respaced (gap ++ cs) (gap' ++ ds)

namespace Respaced

variable {cs ds cs' ds' : List Char}

theorem append_left (front : List Char) (h : Respaced cs ds) :
    Respaced (front ++ cs) (front ++ ds) := by
  induction front with
  | nil => exact h
  | cons c front ih => exact .cons ih

theorem append (h : Respaced cs ds) (h' : Respaced cs' ds') :
    Respaced (cs ++ cs') (ds ++ ds') := by
  induction h with
  | nil => exact h'
  | cons _ ih => exact .cons ih
  | exchange hne hne' hgap hgap' _ ih =>
    rw [List.append_assoc, List.append_assoc]
    exact .exchange hne hne' hgap hgap' ih

theorem refl (cs : List Char) : Respaced cs cs := by
  have h := append_left cs .nil
  rwa [List.append_nil] at h

/-- Quiet characters alone. -/
theorem of_quiet (hne : cs ≠ []) (hne' : ds ≠ []) (hcs : Quiet cs) (hds : Separates ds) :
    Respaced cs ds := by
  have h : Respaced (cs ++ []) (ds ++ []) := .exchange hne hne' hcs hds .nil
  rwa [List.append_nil, List.append_nil] at h

/-- Something stays something. -/
theorem eq_nil (h : Respaced cs []) : cs = [] := by
  generalize hds : ([] : List Char) = ds at h
  cases h with
  | nil => rfl
  | cons => cases hds
  | exchange _ hne' => exact absurd (List.append_eq_nil_iff.1 hds.symm).1 hne'

/-- **Respacing brings in no comment.** -/
theorem isSome_run (h : Respaced cs ds) {s : Scan} (hs : (s.run cs).isSome = true) :
    (s.run ds).isSome = true := by
  induction h generalizing s with
  | nil => exact hs
  | @cons c cs ds _ ih =>
    rw [Scan.run] at hs ⊢
    cases hstep : s.step c with
    | none =>
      rw [hstep] at hs
      cases hs
    | some t =>
      rw [hstep] at hs
      exact ih hs
  | exchange hne hne' hgap hgap' _ ih =>
    rw [Scan.run_append, Scan.run_of_quiet hne hgap] at hs
    rw [Scan.run_append, Scan.run_of_quiet hne' hgap'.1]
    exact ih hs

theorem commentFree (h : Respaced cs ds) (hcs : CommentFree cs) : CommentFree ds :=
  h.isSome_run hcs

/-- Nor a newline. -/
theorem newline_notMem (h : Respaced cs ds) (hcs : '\n' ∉ cs) : '\n' ∉ ds := by
  induction h with
  | nil => exact hcs
  | cons _ ih =>
    rw [List.mem_cons, not_or] at hcs ⊢
    exact ⟨hcs.1, ih hcs.2⟩
  | exchange _ _ _ hgap' _ ih =>
    rw [List.mem_append, not_or] at hcs ⊢
    exact ⟨hgap'.2, ih hcs.2⟩

end Respaced

/-! ## Literals -/

/-- A quoted piece leaves the scanner inside of the string. -/
theorem Scan.run_inside_quotePiece (p : Piece) : inside.run (quotePiece p) = some inside := by
  rcases quotePiece_cases p with ⟨letter, h, -⟩ | ⟨c, h, hc⟩ | ⟨mark, width, n, h, -⟩
  · rw [h]
    rfl
  · rw [h]
    simp [run, step, hc]
  · rw [h, hexEscape]
    change inside.run (padZeros width (hexDigits n)) = some inside
    by_cases hnil : padZeros width (hexDigits n) = []
    · rw [hnil]
      rfl
    · have table : Quiet "0123456789abcdef".toList := by decide
      exact run_of_quiet hnil fun c hc => table c (mem_of_mem_padZeros hc)

theorem Scan.run_inside_quotePieces (ps : List Piece) :
    inside.run (ps.flatMap quotePiece) = some inside := by
  induction ps with
  | nil => rfl
  | cons p ps ih => rw [List.flatMap_cons, run_append, run_inside_quotePiece, Option.bind_some, ih]

/-- **A literal leaves no string open**, whatever it quotes. -/
theorem Scan.run_outside_quoteBytes (bs : Bytes) : outside.run (quoteBytes bs) = some outside := by
  change inside.run ((pieces bs).flatMap quotePiece ++ ['"']) = some outside
  rw [run_append, run_inside_quotePieces]
  rfl

theorem commentFree_quoteBytes (bs : Bytes) : CommentFree (quoteBytes bs) := by
  rw [CommentFree, Scan.run_outside_quoteBytes]
  rfl

end SmellCheck.Listing

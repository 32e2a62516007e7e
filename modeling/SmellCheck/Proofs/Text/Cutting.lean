import SmellCheck.Text.Blank
import SmellCheck.Text.Split
import Mathlib.Data.List.DropRight
/-!
# Texts that are cut and put together

What is put together from parts is cut into the same parts again: at the
first occurrence of a separator, at every occurrence of a character, into
words, and by trimming the blanks around it.
-/

namespace SmellCheck.Text

/-- The characters of a text are checked one by one. -/
theorem forall_mem_of_all {P : Char → Prop} [DecidablePred P] {cs : List Char}
    (h : (cs.all fun c => decide (P c)) = true) : ∀ c ∈ cs, P c := fun c hc =>
  of_decide_eq_true (List.all_eq_true.1 h c hc)

/-! ## Beginnings and ends -/

theorem after?_eq_some {lead cs rest : List Char} :
    after? lead cs = some rest ↔ cs = lead ++ rest := by
  fun_induction after? lead cs with
  | case1 cs => simp
  | case2 => simp
  | case3 c lead cs ih => simp [ih]
  | case4 l lead c cs hne =>
    simp only [reduceCtorEq, List.cons_append, List.cons.injEq, false_iff, not_and]
    intro h
    exact absurd h.symm hne

@[simp] theorem after?_append (lead rest : List Char) : after? lead (lead ++ rest) = some rest :=
  after?_eq_some.2 rfl

theorem after?_eq_none {lead cs : List Char} : after? lead cs = none ↔ ¬ lead <+: cs := by
  rw [Option.eq_none_iff_forall_ne_some]
  constructor
  · rintro h ⟨rest, hrest⟩
    exact h rest (after?_eq_some.2 hrest.symm)
  · intro h rest hrest
    exact h ⟨rest, (after?_eq_some.1 hrest).symm⟩

theorem startsWith_iff {cs lead : List Char} : startsWith cs lead = true ↔ lead <+: cs := by
  rw [startsWith, Option.isSome_iff_ne_none, Ne, after?_eq_none, not_not]

theorem endsWith_iff {cs tail : List Char} : endsWith cs tail = true ↔ tail <:+ cs := by
  rw [endsWith, startsWith_iff, List.reverse_prefix]

@[simp] theorem dropLead_append (lead cs : List Char) : dropLead lead (lead ++ cs) = cs := by
  rw [dropLead, after?_append, Option.getD_some]

theorem dropLead_eq_self {lead cs : List Char} (h : ¬ lead <+: cs) :
    dropLead lead cs = cs := by
  rw [dropLead, after?_eq_none.2 h, Option.getD_none]

@[simp] theorem dropTail_append (tail cs : List Char) : dropTail tail (cs ++ tail) = cs := by
  simp only [dropTail, List.reverse_append, after?_append, List.reverse_reverse]

theorem dropTail_eq_self {tail cs : List Char} (h : ¬ tail <:+ cs) : dropTail tail cs = cs := by
  have hnone : after? tail.reverse cs.reverse = none :=
    after?_eq_none.2 fun hprefix => h (List.reverse_prefix.1 hprefix)
  simp only [dropTail, hnone]

/-! ## The first occurrence -/

/-- A text is cut where the separator stands for the first time. -/
theorem cut?_append {sep before rest : List Char} (hsep : sep ≠ [])
    (h : ∀ u v, before = u ++ v → v ≠ [] → ¬ sep <+: v ++ (sep ++ rest)) :
    cut? sep (before ++ (sep ++ rest)) = some (before, rest) := by
  induction before with
  | nil =>
    obtain ⟨c, cs, rfl⟩ := List.exists_cons_of_ne_nil hsep
    rw [List.nil_append, List.cons_append, cut?, ← List.cons_append, after?_append]
  | cons c before ih =>
    have hfirst : after? sep (c :: before ++ (sep ++ rest)) = none :=
      after?_eq_none.2 (h [] (c :: before) rfl (List.cons_ne_nil c before))
    have hlater := ih fun u v huv hv => h (c :: u) v (by rw [huv, List.cons_append]) hv
    rw [List.cons_append] at hfirst ⊢
    simp only [cut?, hfirst, hlater, Option.map_some]

/-- The parts and the separator make up the text. -/
theorem eq_of_cut? {sep cs before rest : List Char} (h : cut? sep cs = some (before, rest)) :
    cs = before ++ (sep ++ rest) := by
  induction cs generalizing before with
  | nil =>
    rw [cut?] at h
    split at h
    · rename_i hsep
      cases h
      rw [List.isEmpty_iff.1 hsep]
      rfl
    · cases h
  | cons c cs ih =>
    rw [cut?] at h
    split at h
    · rename_i rest' hrest
      cases h
      rw [after?_eq_some.1 hrest, List.nil_append]
    · obtain ⟨⟨before', rest'⟩, hcut, heq⟩ := Option.map_eq_some_iff.1 h
      cases heq
      rw [ih hcut, List.cons_append]

/-- A text is cut at a character that it does not have before. -/
theorem cut?_singleton {c : Char} {before rest : List Char} (h : c ∉ before) :
    cut? [c] (before ++ c :: rest) = some (before, rest) := by
  refine cut?_append (List.cons_ne_nil c []) fun u v huv hv hsep => h ?_
  obtain ⟨d, v, rfl⟩ := List.exists_cons_of_ne_nil hv
  have hcd : c = d := (List.cons_prefix_cons.1 hsep).1
  rw [huv, hcd]
  exact List.mem_append_right u List.mem_cons_self

/-- A text is cut at two equal characters that it does not have before,
where the first of them does not meet one in front of it. -/
theorem cut?_double {c : Char} {before rest : List Char} (hpair : ¬ [c, c] <:+: before)
    (hend : ¬ [c] <:+ before) : cut? [c, c] (before ++ ([c, c] ++ rest)) = some (before, rest) := by
  refine cut?_append (List.cons_ne_nil c [c]) fun u v huv hv hsep => ?_
  rcases v with _ | ⟨d, _ | ⟨e, v⟩⟩
  · exact hv rfl
  · obtain ⟨rfl, -⟩ := List.cons_prefix_cons.1 hsep
    exact hend (huv ▸ List.suffix_append u [c])
  · obtain ⟨hd, hrest⟩ := List.cons_prefix_cons.1 hsep
    obtain ⟨he, -⟩ := List.cons_prefix_cons.1 hrest
    subst hd he
    exact hpair ⟨u, v, by rw [huv, List.append_assoc]; rfl⟩

/-- A text is not cut at a character that it does not have. -/
theorem cut?_eq_none {c : Char} {cs : List Char} : cut? [c] cs = none ↔ c ∉ cs := by
  constructor
  · intro h hc
    -- a text with the character has it for a first time
    obtain ⟨before, rest, rfl, hbefore⟩ := List.eq_append_cons_of_mem hc
    rw [cut?_singleton hbefore] at h
    cases h
  · intro h
    cases hcut : cut? [c] cs with
    | none => rfl
    | some parts =>
      refine absurd ?_ h
      rw [eq_of_cut? hcut]
      exact List.mem_append_right _ List.mem_cons_self

/-! ## Every occurrence -/

theorem splitOn_eq (sep : Char) (cs : List Char) : splitOn sep cs = cs.splitOn sep := by
  induction cs with
  | nil => rfl
  | cons c cs ih =>
    rw [splitOn, ih, List.splitOn_cons_eq_if_modifyHead]
    by_cases hc : c = sep
    · simp [hc]
    · cases hparts : cs.splitOn sep with
      | nil => exact absurd hparts (List.splitOn_ne_nil _ _)
      | cons part parts => simp [hc]

/-- What is joined is split into the same parts. -/
theorem splitOn_intercalate {sep : Char} {parts : List (List Char)} (hne : parts ≠ [])
    (h : ∀ part ∈ parts, sep ∉ part) : splitOn sep ([sep].intercalate parts) = parts := by
  rw [splitOn_eq, List.splitOn_intercalate sep h hne]

theorem splitOn_append_cons {sep : Char} {part : List Char} (h : sep ∉ part) (rest : List Char) :
    splitOn sep (part ++ sep :: rest) = part :: splitOn sep rest := by
  induction part with
  | nil => rw [List.nil_append, splitOn, if_pos rfl]
  | cons c part ih =>
    rw [List.mem_cons, not_or] at h
    rw [List.cons_append, splitOn, if_neg (Ne.symm h.1), ih h.2]

/-- No part has the character. -/
theorem notMem_of_mem_splitOn {sep : Char} {cs part : List Char} (h : part ∈ splitOn sep cs) :
    sep ∉ part := by
  induction cs generalizing part with
  | nil =>
    rw [splitOn, List.mem_singleton] at h
    rw [h]
    exact List.not_mem_nil
  | cons c cs ih =>
    rw [splitOn] at h
    split at h
    · rcases List.mem_cons.1 h with rfl | h
      · exact List.not_mem_nil
      · exact ih h
    · rename_i hc
      cases hparts : splitOn sep cs with
      | nil =>
        rw [hparts, List.mem_singleton] at h
        rw [h, List.mem_singleton]
        exact fun hsep => hc hsep.symm
      | cons first parts =>
        rw [hparts] at h ih
        rcases List.mem_cons.1 h with rfl | h
        · rintro (_ | ⟨_, hsep⟩)
          · exact hc rfl
          · exact ih List.mem_cons_self hsep
        · exact ih (List.mem_cons_of_mem first h)

/-! ## Blanks at the ends -/

/-- All characters are blank. -/
def IsGap (cs : List Char) : Prop :=
  ∀ c ∈ cs, isBlank c = true

/-- Blanks around a text do not count. -/
theorem trim_append_gap {left cs right : List Char} (hleft : IsGap left) (hright : IsGap right) :
    trim (left ++ cs ++ right) = trim cs := by
  have hdrop : (left ++ cs ++ right).dropWhile isBlank = (cs ++ right).dropWhile isBlank := by
    rw [List.append_assoc, List.dropWhile_append_of_pos hleft]
  have hgap : (right.dropWhile isBlank) = [] := List.dropWhile_eq_nil_iff.2 hright
  rw [trim, trim, hdrop, List.dropWhile_append]
  split
  · rename_i hnil
    rw [hgap, List.isEmpty_iff.1 hnil]
  · rw [trimRight, trimRight, List.reverse_append,
      List.dropWhile_append_of_pos fun c hc => hright c (List.mem_reverse.1 hc)]

/-- A text is its trimmed form with blanks around it. -/
theorem exists_gaps (cs : List Char) :
    ∃ left right, IsGap left ∧ IsGap right ∧ cs = left ++ trim cs ++ right := by
  refine ⟨cs.takeWhile isBlank, (cs.dropWhile isBlank).rtakeWhile isBlank, ?_, ?_, ?_⟩
  · exact fun c hc => List.mem_takeWhile_imp hc
  · exact fun c hc => List.mem_rtakeWhile_imp hc
  · have hback : (cs.dropWhile isBlank).rdropWhile isBlank ++
        (cs.dropWhile isBlank).rtakeWhile isBlank = cs.dropWhile isBlank :=
      List.rdropWhile_append_rtakeWhile ..
    rw [List.append_assoc]
    exact (List.takeWhile_append_dropWhile ..).symm.trans (congrArg _ hback.symm)

@[simp] theorem trim_trim (cs : List Char) : trim (trim cs) = trim cs := by
  obtain ⟨left, right, hleft, hright, hcs⟩ := exists_gaps cs
  have h : trim (left ++ trim cs ++ right) = trim (trim cs) := trim_append_gap hleft hright
  rw [← hcs] at h
  exact h.symm

theorem mem_of_mem_trim {c : Char} {cs : List Char} (h : c ∈ trim cs) : c ∈ cs := by
  obtain ⟨left, right, -, -, hcs⟩ := exists_gaps cs
  rw [hcs]
  exact List.mem_append_left _ (List.mem_append_right _ h)

/-- A text that neither begins nor ends with a blank is trimmed. -/
theorem trim_eq_self {cs : List Char} (hhead : ∀ c, cs.head? = some c → isBlank c = false)
    (hlast : ∀ c, cs.getLast? = some c → isBlank c = false) : trim cs = cs := by
  obtain ⟨left, right, hleft, hright, hcs⟩ := exists_gaps cs
  have hnoLeft : left = [] := by
    rcases left with _ | ⟨c, left⟩
    · rfl
    · have hc := hhead c (by rw [hcs]; rfl)
      rw [hleft c List.mem_cons_self] at hc
      cases hc
  have hnoRight : right = [] := by
    rcases List.eq_nil_or_concat right with rfl | ⟨right, c, rfl⟩
    · rfl
    · have hc := hlast c (by rw [hcs, List.concat_eq_append, ← List.append_assoc]; simp)
      rw [hright c (by simp)] at hc
      cases hc
  rw [hnoLeft, hnoRight, List.nil_append, List.append_nil] at hcs
  exact hcs.symm

theorem isGap_nil : IsGap [] :=
  fun _ h => absurd h List.not_mem_nil

theorem isGap_singleton {c : Char} (h : isBlank c = true) : IsGap [c] :=
  List.forall_mem_singleton.2 h

/-- Of blanks nothing is left. -/
theorem trim_of_isGap {cs : List Char} (h : IsGap cs) : trim cs = [] := by
  have htrim : trim (cs ++ [] ++ []) = trim [] := trim_append_gap h isGap_nil
  rwa [List.append_nil, List.append_nil] at htrim

theorem length_trim_le (cs : List Char) : (trim cs).length ≤ cs.length := by
  obtain ⟨left, right, -, -, hcs⟩ := exists_gaps cs
  have hlen := congrArg List.length hcs
  simp only [List.length_append] at hlen
  omega

/-- A trimmed text does not begin with a blank. -/
theorem isBlank_head_of_trim {c : Char} {cs : List Char} (h : trim (c :: cs) = c :: cs) :
    isBlank c = false := by
  by_contra hc
  have hrest : trim ([c] ++ cs ++ []) = trim cs :=
    trim_append_gap (isGap_singleton (by simpa using hc)) isGap_nil
  rw [List.append_nil, List.singleton_append, h] at hrest
  have hlen := length_trim_le cs
  rw [← hrest, List.length_cons] at hlen
  omega

/-- A trimmed text does not end with a blank. -/
theorem isBlank_last_of_trim {c : Char} {cs : List Char} (h : trim (cs ++ [c]) = cs ++ [c]) :
    isBlank c = false := by
  by_contra hc
  have hfront : trim ([] ++ cs ++ [c]) = trim cs :=
    trim_append_gap isGap_nil (isGap_singleton (by simpa using hc))
  rw [List.nil_append, h] at hfront
  have hlen := length_trim_le cs
  rw [← hfront, List.length_append, List.length_singleton] at hlen
  omega

/-- A trimmed text does not end with a blank, whatever stands in front. -/
theorem isBlank_last_of_trim_append {front cs : List Char} {c : Char}
    (h : trim (front ++ (cs ++ [c])) = front ++ (cs ++ [c])) : isBlank c = false := by
  rw [← List.append_assoc] at h
  exact isBlank_last_of_trim h

/-- What is trimmed at both ends is trimmed, whatever stands between. -/
theorem trim_between {front back : List Char} (middle : List Char) (hne : front ≠ [])
    (hfront : trim front = front) (hne' : back ≠ []) (hback : trim back = back) :
    trim (front ++ (middle ++ back)) = front ++ (middle ++ back) := by
  refine trim_eq_self (fun c hc => ?_) fun c hc => ?_
  · obtain ⟨d, front, rfl⟩ := List.exists_cons_of_ne_nil hne
    cases hc
    exact isBlank_head_of_trim hfront
  · rcases List.eq_nil_or_concat' back with rfl | ⟨back, d, rfl⟩
    · exact absurd rfl hne'
    · rw [← List.append_assoc, ← List.append_assoc, List.getLast?_concat] at hc
      cases hc
      exact isBlank_last_of_trim hback

/-- What stands at the end of a trimmed text has blanks at its front
only. -/
theorem exists_gap_of_trim_append {front cs : List Char} (h : trim (front ++ cs) = front ++ cs) :
    ∃ gap, IsGap gap ∧ cs = gap ++ trim cs := by
  obtain ⟨left, right, hleft, hright, hcs⟩ := exists_gaps cs
  rcases List.eq_nil_or_concat' right with rfl | ⟨right, c, rfl⟩
  · exact ⟨left, hleft, by rwa [List.append_nil] at hcs⟩
  · rw [hcs, ← List.append_assoc] at h
    have hlast := isBlank_last_of_trim_append h
    rw [hright c (by simp)] at hlast
    cases hlast

/-- And what stands at the front has blanks at its end only. -/
theorem exists_gap_of_trim_append_left {cs back : List Char}
    (h : trim (cs ++ back) = cs ++ back) : ∃ gap, IsGap gap ∧ cs = trim cs ++ gap := by
  obtain ⟨left, right, hleft, hright, hcs⟩ := exists_gaps cs
  rcases left with _ | ⟨c, left⟩
  · exact ⟨right, hright, hcs⟩
  · rw [hcs] at h
    have hhead : isBlank c = false := isBlank_head_of_trim h
    rw [hleft c List.mem_cons_self] at hhead
    cases hhead

/-- The end of a trimmed text is blank only if there is nothing. -/
theorem eq_nil_of_trim_append {front cs : List Char} (h : trim (front ++ cs) = front ++ cs)
    (hcs : trim cs = []) : cs = [] := by
  obtain ⟨gap, hgap, heq⟩ := exists_gap_of_trim_append h
  rw [hcs, List.append_nil] at heq
  rcases List.eq_nil_or_concat' cs with rfl | ⟨cs, c, rfl⟩
  · rfl
  · have hlast := isBlank_last_of_trim_append h
    rw [hgap c (by rw [← heq]; simp)] at hlast
    cases hlast

/-! ## Words -/

/-- One or more characters, none of them blank. -/
def IsWord (cs : List Char) : Prop :=
  cs ≠ [] ∧ ∀ c ∈ cs, isBlank c = false

instance : DecidablePred IsWord := fun cs =>
  decidable_of_iff (cs ≠ [] ∧ (cs.all fun c => !isBlank c) = true) (by simp [IsWord])

/-- A word is trimmed. -/
theorem IsWord.trim_eq {w : List Char} (h : IsWord w) : trim w = w :=
  trim_eq_self (fun c hc => h.2 c (List.mem_of_mem_head? hc)) fun c hc =>
    h.2 c (List.mem_of_mem_getLast? hc)

/-- Characters that are not blank go on with the current word. -/
theorem wordsAfter_append {word cs rest : List Char} (h : ∀ c ∈ cs, isBlank c = false) :
    wordsAfter word (cs ++ rest) = wordsAfter (cs.reverse ++ word) rest := by
  induction cs generalizing word with
  | nil => rfl
  | cons c cs ih =>
    have hc : ¬ isBlank c = true := by simp [h c List.mem_cons_self]
    rw [List.cons_append, wordsAfter, if_neg hc, ih fun d hd => h d (List.mem_cons_of_mem c hd),
      List.reverse_cons, List.append_assoc, List.singleton_append]

theorem words_of_isWord {w : List Char} (h : IsWord w) : words w = [w] := by
  have hne : ¬ (w.reverse ++ []).isEmpty = true := by simp [h.1]
  rw [words, ← List.append_nil w, wordsAfter_append h.2, wordsAfter, if_neg hne]
  simp

/-- A blank divides words. -/
theorem wordsAfter_append_cons {word cs rest : List Char} {c : Char} (hc : isBlank c = true) :
    wordsAfter word (cs ++ c :: rest) = wordsAfter word cs ++ words rest := by
  induction cs generalizing word with
  | nil =>
    simp only [List.nil_append, wordsAfter, if_pos hc, words]
    split <;> rfl
  | cons d cs ih =>
    rw [List.cons_append, wordsAfter, wordsAfter]
    split
    · split
      · exact ih
      · rw [ih, List.cons_append]
    · exact ih

theorem words_append_cons {cs rest : List Char} {c : Char} (hc : isBlank c = true) :
    words (cs ++ c :: rest) = words cs ++ words rest :=
  wordsAfter_append_cons hc

/-- Words that are joined do not begin with a blank. -/
theorem exists_intercalate_eq_cons {ws : List (List Char)} (hne : ws ≠ [])
    (h : ∀ w ∈ ws, IsWord w) : ∃ c cs, [' '].intercalate ws = c :: cs ∧ isBlank c = false := by
  obtain ⟨w, ws, rfl⟩ := List.exists_cons_of_ne_nil hne
  obtain ⟨hw, hblank⟩ := h w List.mem_cons_self
  obtain ⟨c, w, rfl⟩ := List.exists_cons_of_ne_nil hw
  refine ⟨c, ?_, ?_, hblank c List.mem_cons_self⟩
  · exact ([' '].intercalate ((c :: w) :: ws)).tail
  · cases ws with
    | nil => rw [List.intercalate_singleton, List.tail_cons]
    | cons v ws => rw [List.intercalate_cons_cons]; rfl

/-- The words of words that are joined by single spaces. -/
theorem words_intercalate {ws : List (List Char)} (h : ∀ w ∈ ws, IsWord w) :
    words ([' '].intercalate ws) = ws := by
  induction ws with
  | nil => rfl
  | cons w ws ih =>
    have hw : words w = [w] := words_of_isWord (h w List.mem_cons_self)
    have hws : ∀ w ∈ ws, IsWord w := fun v hv => h v (List.mem_cons_of_mem w hv)
    cases ws with
    | nil => rw [List.intercalate_singleton, hw]
    | cons v ws =>
      rw [List.intercalate_cons_cons, List.append_assoc, List.singleton_append,
        words_append_cons rfl, hw, ih hws, List.singleton_append]

theorem isWord_reverse {word : List Char} (hne : ¬ word.isEmpty = true)
    (h : ∀ c ∈ word, isBlank c = false) : IsWord word.reverse :=
  ⟨fun hnil => hne (List.isEmpty_iff.2 (List.reverse_eq_nil_iff.1 hnil)),
    fun c hc => h c (List.mem_reverse.1 hc)⟩

theorem isWord_of_mem_wordsAfter {word cs w : List Char} (hword : ∀ c ∈ word, isBlank c = false)
    (h : w ∈ wordsAfter word cs) : IsWord w := by
  fun_induction wordsAfter word cs with
  | case1 => exact absurd h List.not_mem_nil
  | case2 word hne =>
    rw [List.mem_singleton.1 h]
    exact isWord_reverse hne hword
  | case3 word c cs hc hempty ih => exact ih (by simp) h
  | case4 word c cs hc hne ih =>
    rcases List.mem_cons.1 h with rfl | h
    · exact isWord_reverse hne hword
    · exact ih (by simp) h
  | case5 word c cs hc ih =>
    exact ih (List.forall_mem_cons.2 ⟨by simpa using hc, hword⟩) h

/-- Words are not empty and have no blank. -/
theorem isWord_of_mem_words {cs w : List Char} (h : w ∈ words cs) : IsWord w :=
  isWord_of_mem_wordsAfter (fun _ hc => absurd hc List.not_mem_nil) h

theorem words_gap_append {gap cs : List Char} (h : IsGap gap) : words (gap ++ cs) = words cs := by
  induction gap with
  | nil => rfl
  | cons c gap ih =>
    obtain ⟨hc, hgap⟩ := List.forall_mem_cons.1 h
    have hskip : words ([] ++ c :: (gap ++ cs)) = words [] ++ words (gap ++ cs) :=
      words_append_cons hc
    rw [List.cons_append]
    exact hskip.trans (ih hgap)

theorem words_append_gap {gap cs : List Char} (h : IsGap gap) : words (cs ++ gap) = words cs := by
  cases gap with
  | nil => rw [List.append_nil]
  | cons c gap =>
    obtain ⟨hc, hgap⟩ := List.forall_mem_cons.1 h
    have hnone : words (gap ++ []) = words [] := words_gap_append hgap
    rw [List.append_nil] at hnone
    rw [words_append_cons hc, hnone]
    exact List.append_nil _

/-- Blanks around a text do not matter for its words. -/
theorem words_trim (cs : List Char) : words (trim cs) = words cs := by
  obtain ⟨left, right, hleft, hright, hcs⟩ := exists_gaps cs
  rw [hcs, words_append_gap hright, words_gap_append hleft, ← hcs]

/-! ## Lists -/

/-- What holds of the parts and of what divides them holds of the whole. -/
theorem forall_mem_intercalate {P : Char → Prop} {sep : List Char} {parts : List (List Char)}
    (hsep : ∀ c ∈ sep, P c) (h : ∀ part ∈ parts, ∀ c ∈ part, P c) :
    ∀ c ∈ sep.intercalate parts, P c := by
  induction parts with
  | nil => exact fun c hc => absurd hc List.not_mem_nil
  | cons part parts ih =>
    obtain ⟨hpart, hparts⟩ := List.forall_mem_cons.1 h
    by_cases hnil : parts = []
    · rw [hnil, List.intercalate_singleton]
      exact hpart
    · rw [List.intercalate_cons_of_ne_nil hnil]
      exact List.forall_mem_append.2 ⟨List.forall_mem_append.2 ⟨hpart, hsep⟩, ih hparts⟩

/-- A list that is divided by commas and spaces is split into its parts.
There may be blanks in front. -/
theorem map_trim_splitOn {parts : List (List Char)} {gap : List Char} (hne : parts ≠ [])
    (hgap : IsGap gap) (hcomma : ',' ∉ gap)
    (h : ∀ part ∈ parts, trim part = part ∧ ',' ∉ part) :
    (splitOn ',' (gap ++ [',', ' '].intercalate parts)).map trim = parts := by
  induction parts generalizing gap with
  | nil => exact absurd rfl hne
  | cons part parts ih =>
    obtain ⟨⟨htrim, hpart⟩, hparts⟩ := List.forall_mem_cons.1 h
    have hfirst : ',' ∉ gap ++ part := fun hmem => (List.mem_append.1 hmem).elim hcomma hpart
    have htrim' : trim (gap ++ part) = part := by
      have hfront : trim (gap ++ part ++ []) = trim part := trim_append_gap hgap isGap_nil
      rwa [List.append_nil, htrim] at hfront
    by_cases hnil : parts = []
    · have hone := splitOn_intercalate (List.cons_ne_nil (gap ++ part) [])
        (List.forall_mem_singleton.2 hfirst)
      rw [List.intercalate_singleton] at hone
      rw [hnil, List.intercalate_singleton, hone, List.map_singleton, htrim']
    · -- the space behind the comma comes in front of the next part
      have hrest := ih hnil (isGap_singleton rfl : IsGap [' ']) (by decide) hparts
      rw [List.intercalate_cons_of_ne_nil hnil, List.append_assoc, ← List.append_assoc]
      rw [List.cons_append, splitOn_append_cons hfirst, List.map_cons, htrim', hrest]

end SmellCheck.Text

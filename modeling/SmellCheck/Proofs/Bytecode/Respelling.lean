import SmellCheck.Proofs.Bytecode.Comment
import SmellCheck.Proofs.Bytecode.Signature
import SmellCheck.Proofs.Outcome
/-!
# Signatures written again

A signature that was read from a text is written again as the same text
up to the characters that separate its parts: blanks, keywords and
reference marks (`Signature.respaced_text`). So it brings no comment into
a line that had none. The types and names themselves are kept to the
letter.
-/

namespace SmellCheck

open Text Listing

/-! ## Words -/

namespace Text

/-- **A trimmed text is its words with single blanks between them**, up
to the blanks. -/
theorem respaced_words {cs : List Char} (h : trim cs = cs) :
    Respaced cs ([' '].intercalate (words cs)) := by
  -- along the words: what comes behind the first one is trimmed too
  induction hlen : cs.length using Nat.strongRecOn generalizing cs with
  | ind n ih =>
    cases hfind : cs.find? isBlank with
    | none =>
      have hword : ∀ c ∈ cs, isBlank c = false := by simpa using hfind
      by_cases hnil : cs = []
      · rw [hnil]
        exact .nil
      · rw [words_of_isWord ⟨hnil, hword⟩, List.intercalate_singleton]
        exact .refl cs
    | some c =>
      obtain ⟨hc, word, rest, rfl, hword⟩ := List.find?_eq_some_iff_append.1 hfind
      have hne : word ≠ [] := by
        rintro rfl
        have hhead : isBlank c = false := isBlank_head_of_trim h
        rw [hc] at hhead
        cases hhead
      rw [← List.singleton_append, ← List.append_assoc] at h
      obtain ⟨gap, hgap, hrest⟩ := exists_gap_of_trim_append h
      have htrim : trim rest ≠ [] := by
        intro hnil
        rw [eq_nil_of_trim_append h hnil, List.append_nil] at h
        have hlast := isBlank_last_of_trim h
        rw [hc] at hlast
        cases hlast
      have hwords : Respaced (trim rest) ([' '].intercalate (words rest)) := by
        rw [← words_trim]
        refine ih (trim rest).length ?_ (trim_trim rest) rfl
        have := length_trim_le rest
        rw [← hlen, List.length_append, List.length_cons]
        omega
      have hsome : words rest ≠ [] := fun hnil => htrim (by
        rw [hnil] at hwords
        exact hwords.eq_nil)
      have hblank : IsGap (c :: gap) := List.forall_mem_cons.2 ⟨hc, hgap⟩
      rw [words_append_cons hc, words_of_isWord ⟨hne, by simpa using hword⟩, List.singleton_append,
        List.intercalate_cons_of_ne_nil hsome, List.append_assoc, hrest, ← List.cons_append,
        ← hrest]
      exact .append_left word
        (.exchange (List.cons_ne_nil c gap) (List.cons_ne_nil _ _)
          (quiet_of_isGap hblank) (by decide) hwords)

end Text

namespace Signature

/-! ## Parameters -/

/-- The second text is the first one with other separators around it. -/
def Reframed (cs ds : List Char) : Prop :=
  ∃ front core back front' back', cs = front ++ core ++ back ∧ ds = front' ++ core ++ back' ∧
    Quiet front ∧ Quiet back ∧ Separates front' ∧ Separates back'

namespace Reframed

variable {cs ds left right : List Char}

theorem refl (cs : List Char) : Reframed cs cs :=
  ⟨[], cs, [], [], [], by simp, by simp, quiet_nil, quiet_nil, separates_nil, separates_nil⟩

/-- What stands around the first text may be left out, if it is quiet. -/
theorem append_fst (h : Reframed cs ds) (hleft : Quiet left) (hright : Quiet right) :
    Reframed (left ++ cs ++ right) ds := by
  obtain ⟨front, core, back, front', back', rfl, hds, hfront, hback, hquiet⟩ := h
  exact ⟨left ++ front, core, back ++ right, front', back', by simp, hds, hleft.append hfront,
    hback.append hright, hquiet⟩

/-- And it may be added around the second one. -/
theorem append_snd (h : Reframed cs ds) (hleft : Separates left) (hright : Separates right) :
    Reframed cs (left ++ ds ++ right) := by
  obtain ⟨front, core, back, front', back', hcs, rfl, hfront, hback, hfront', hback'⟩ := h
  exact ⟨front, core, back, left ++ front', back' ++ right, hcs, by simp, hfront, hback,
    hleft.append hfront', hback'.append hright⟩

theorem append_right (h : Reframed cs ds) (hright : Separates right) :
    Reframed cs (ds ++ right) :=
  h.append_snd separates_nil hright

/-- **A text with other separators, in its place.** Whatever separates it
from what comes before and behind may change with it. -/
theorem respaced {front front' rest rest' : List Char} (h : Reframed cs ds) (hne : front ≠ [])
    (hne' : front' ≠ []) (hfront : Quiet front) (hfront' : Separates front')
    (hrest : ∀ back back', Quiet back → Separates back' →
      Respaced (back ++ rest) (back' ++ rest')) :
    Respaced (front ++ (cs ++ rest)) (front' ++ (ds ++ rest')) := by
  obtain ⟨left, core, back, left', back', rfl, rfl, hleft, hback, hleft', hback'⟩ := h
  have hcore : Respaced ((front ++ left) ++ (core ++ (back ++ rest)))
      ((front' ++ left') ++ (core ++ (back' ++ rest'))) :=
    .exchange (by simp [hne]) (by simp [hne']) (hfront.append hleft) (hfront'.append hleft')
      (.append_left core (hrest back back' hback hback'))
  simpa using hcore

theorem of_trim (h : Reframed (trim cs) ds) : Reframed cs ds := by
  obtain ⟨left, right, hleft, hright, hcs⟩ := exists_gaps cs
  rw [hcs]
  exact h.append_fst (quiet_of_isGap hleft) (quiet_of_isGap hright)

end Reframed

theorem reframed_dropRefMark (cs : List Char) : Reframed cs (dropRefMark cs) := by
  rw [dropRefMark, dropTail]
  split
  · rename_i rest hafter
    have hcs : cs = [] ++ rest.reverse ++ ['&'] := by
      rw [List.nil_append, ← List.reverse_reverse cs, after?_eq_some.1 hafter]
      simp
    rw [hcs]
    exact (Reframed.refl rest.reverse).append_fst quiet_nil (by decide)
  · exact .refl cs

/-- The type behind a keyword is written with other separators. -/
theorem reframed_typeAfterKeyword {keyword t : List Char} (h : Quiet keyword) :
    Reframed (keyword ++ t) (typeAfterKeyword t).toList := by
  have ht : Reframed t (dropRefMark (trim t)) := (reframed_dropRefMark (trim t)).of_trim
  have hkeyword : Reframed (keyword ++ t ++ []) (dropRefMark (trim t)) :=
    ht.append_fst h quiet_nil
  rwa [List.append_nil, ← String.toList_ofList (l := dropRefMark (trim t))] at hkeyword

/-- Behind either of its keywords, a parameter that the callee writes has
the same type. -/
theorem reframed_outParam {keyword t : List Char} (h : Quiet keyword) :
    Reframed (keyword ++ t) (Param.text ⟨typeAfterKeyword t, .out⟩).toList := by
  simp only [Param.text, String.toList_append]
  exact (reframed_typeAfterKeyword h).append_snd (by decide) (by decide)

/-- **A parameter is written again with the same type.** -/
theorem reframed_readParam (cs : List Char) : Reframed cs (readParam cs).text.toList := by
  have hmark : Separates "&".toList := by decide
  rw [readParam]
  split
  · rename_i t hafter
    rw [after?_eq_some.1 hafter]
    exact reframed_outParam (by decide)
  split
  · rename_i t hafter
    rw [after?_eq_some.1 hafter]
    exact reframed_outParam (by decide)
  split
  · rename_i t hafter
    rw [after?_eq_some.1 hafter]
    simp only [Param.text, String.toList_append]
    exact (reframed_typeAfterKeyword (by decide)).append_right hmark
  split
  · simp only [Param.text, String.toList_append, String.toList_ofList]
    exact (reframed_dropRefMark cs).append_right hmark
  · simp only [Param.text, String.toList_ofList]
    exact .refl cs

/-- Nothing but blanks has no parameters. -/
theorem isGap_of_splitParamsAfter {depth : Int} {current cs : List Char}
    (h : splitParamsAfter depth current cs = []) : IsGap (current.reverse ++ cs) := by
  fun_induction splitParamsAfter depth current cs with
  | case1 depth current last hempty =>
    obtain ⟨left, right, hleft, hright, hcs⟩ := exists_gaps current.reverse
    have hnil : trim current.reverse = [] := List.isEmpty_iff.1 hempty
    rw [List.append_nil, hcs, hnil, List.append_nil]
    exact List.forall_mem_append.2 ⟨hleft, hright⟩
  | case2 => cases h
  | case3 => cases h
  | case4 depth current c cs hc ih =>
    have hrest := ih h
    rwa [List.reverse_cons, List.append_assoc, List.singleton_append] at hrest

/-- **A list of parameters is written again as it was**, up to the
separators. What opens it is given as it was and as it is. -/
theorem respaced_params {depth : Int} {current cs front front' : List Char} (hne : front ≠ [])
    (hne' : front' ≠ []) (hfront : Quiet front) (hfront' : Separates front') :
    Respaced (front ++ (current.reverse ++ (cs ++ [')']))) (front' ++
      ([',', ' '].intercalate
        ((splitParamsAfter depth current cs).map fun p => (readParam p).text.toList) ++
          [')'])) := by
  have hclose : Quiet [')'] := by decide
  have hclose' : Separates [')'] := by decide
  -- along the commas that divide: the separators around each pass over to the next parameter
  fun_induction splitParamsAfter depth current cs generalizing front front' with
  | case1 depth current last =>
    rename_i hempty
    have hgap : IsGap current.reverse := by
      have hnone : splitParamsAfter depth current [] = [] := by
        rw [splitParamsAfter]
        exact if_pos hempty
      have hall := isGap_of_splitParamsAfter hnone
      rwa [List.append_nil] at hall
    exact .of_quiet (by simp) (by simp) (hfront.append ((quiet_of_isGap hgap).append hclose))
      (hfront'.append hclose')
  | case2 depth current last =>
    have hparam : Reframed current.reverse (readParam last).text.toList :=
      (reframed_readParam last).of_trim
    rw [List.map_singleton, List.intercalate_singleton, List.nil_append]
    refine hparam.respaced hne hne' hfront hfront' fun back back' hback hback' => ?_
    exact .of_quiet (by simp) (by simp) (hback.append hclose) (hback'.append hclose')
  | case3 depth current c cs =>
    rename_i hc ih
    have hparam : Reframed current.reverse (readParam (trim current.reverse)).text.toList :=
      (reframed_readParam _).of_trim
    obtain ⟨rfl, -⟩ := hc
    rw [List.map_cons]
    by_cases hnil : splitParamsAfter depth [] cs = []
    · -- a blank end behind the last comma goes with it
      have hgap : IsGap cs := isGap_of_splitParamsAfter hnil
      rw [hnil, List.map_nil, List.intercalate_singleton]
      refine hparam.respaced hne hne' hfront hfront' fun back back' hback hback' => ?_
      have hquiet : Quiet (',' :: (cs ++ [')'])) :=
        .cons (by decide) ((quiet_of_isGap hgap).append hclose)
      exact .of_quiet (by simp) (by simp) (hback.append hquiet) (hback'.append hclose')
    · rw [List.intercalate_cons_of_ne_nil (by simpa using hnil), List.append_assoc,
        List.append_assoc]
      refine hparam.respaced hne hne' hfront hfront' fun back back' hback hback' => ?_
      have hopen : Quiet (back ++ [',']) := hback.append (by decide)
      have hopen' : Separates (back' ++ [',', ' ']) := hback'.append (by decide)
      have hrest := ih (by simp) (by simp) hopen hopen'
      rwa [List.append_assoc, List.append_assoc] at hrest
  | case4 depth current c cs =>
    rename_i ih
    have hrest := ih hne hne' hfront hfront'
    rwa [List.reverse_cons, List.append_assoc, List.singleton_append] at hrest

/-! ## Signatures -/

variable {m : Signature}

/-- What stands in front of the declaring type's end is words. -/
theorem exists_words_of_readHead {head : List Char} {hasThis : Bool} {returns owner : String}
    (h : readHead head = .ok (hasThis, returns, owner)) :
    ∃ ws : List String, ws ≠ [] ∧ returns = " ".intercalate ws ∧
      (words head).map String.ofList =
        (if hasThis then ["instance"] else []) ++ (ws ++ [owner]) := by
  have hlast : ∀ {ws more : List String} {last owner : String},
      ws.reverse = owner :: last :: more → ws = (last :: more).reverse ++ [owner] := by
    intro ws more last owner hws
    rw [← List.reverse_reverse ws, hws, List.reverse_cons]
  generalize hws : (words head).map String.ofList = ws
  by_cases hthis : ∃ rest, ws = "instance" :: rest
  · obtain ⟨rest, rfl⟩ := hthis
    simp only [readHead, hws] at h
    split at h
    · rename_i hrest
      cases h
      exact ⟨_, by simp, rfl, congrArg ("instance" :: ·) (hlast hrest)⟩
    · cases h
  · have hplain : ∀ rest, ws ≠ "instance" :: rest := fun rest hrest => hthis ⟨rest, hrest⟩
    simp only [readHead, hws] at h
    split at h
    · rename_i hrest
      cases h
      exact ⟨_, by simp, rfl, hlast hrest⟩
    · cases h

/-- The types and the receiver are written again as their words. -/
theorem headText_eq_words {head : List Char}
    (h : readHead head = .ok (m.hasThis, m.returns, m.owner)) :
    m.headText = [' '].intercalate (words head) := by
  obtain ⟨ws, hne, hreturns, hwords⟩ := exists_words_of_readHead h
  have hjoin : [' '].intercalate (words head) =
      (" ".intercalate ((words head).map String.ofList)).toList := by
    rw [String.toList_intercalate, List.map_map]
    simp [Function.comp_def]
  rw [hjoin, hwords, headText, hreturns]
  cases m.hasThis with
  | false =>
    simp [String.intercalate_append_of_ne_nil hne]
  | true =>
    simp [String.intercalate_append_of_ne_nil hne, String.intercalate_cons_of_ne_nil]

theorem returns_ne_of_readHead {head : List Char} {hasThis : Bool} {returns owner : String}
    (h : readHead head = .ok (hasThis, returns, owner)) : returns ≠ "" := by
  obtain ⟨ws, hne, rfl, hwords⟩ := exists_words_of_readHead h
  have hword : ∀ w ∈ ws.map String.toList, IsWord w := by
    intro w hw
    obtain ⟨s, hs, rfl⟩ := List.mem_map.1 hw
    have hmem : s ∈ (words head).map String.ofList := by
      rw [hwords]
      simp [hs]
    obtain ⟨word, hword, rfl⟩ := List.mem_map.1 hmem
    rw [String.toList_ofList]
    exact isWord_of_mem_words hword
  obtain ⟨c, cs, hcs, -⟩ := exists_intercalate_eq_cons (by simpa using hne) hword
  intro hnil
  have hempty : (" ".intercalate ws).toList = [] := by
    rw [hnil]
    rfl
  rw [String.toList_intercalate] at hempty
  rw [show " ".toList = [' '] from rfl, hcs] at hempty
  cases hempty

/-- What stands behind the declaring type is a name and a list. -/
theorem exists_of_readTail {tail : List Char} {name : String} {params : List Param}
    (h : readTail tail = .ok (name, params)) :
    ∃ rawName rawParams, tail = rawName ++ '(' :: (rawParams ++ [')']) ∧
      name.toList = trim rawName ∧ params = (splitParams rawParams).map readParam := by
  rw [readTail] at h
  split at h
  · cases h
  rename_i rawName rest hcut
  split at h
  swap
  · cases h
  rename_i hclose
  simp only at h
  split at h
  · cases h
  cases h
  have htail : tail = rawName ++ ['('] ++ rest := by rw [eq_of_cut? hcut, List.append_assoc]
  have hlast : tail.getLast? = some ')' :=
    List.singleton_suffix_iff_getLast?_eq_some.1 (endsWith_iff.1 hclose)
  rcases List.eq_nil_or_concat' rest with rfl | ⟨rawParams, c, rfl⟩
  · rw [htail, List.append_nil, List.getLast?_concat] at hlast
    cases hlast
  · rw [htail, ← List.append_assoc, List.getLast?_concat] at hlast
    obtain rfl : c = ')' := Option.some.inj hlast
    refine ⟨rawName, rawParams, by simp [htail], by rw [String.toList_ofList], ?_⟩
    rw [List.dropLast_concat]

/-- What a signature is read from. -/
theorem exists_of_read {cs : List Char} (htrim : trim cs = cs)
    (h : read (String.ofList cs) = .ok m) :
    ∃ head tail, cs = head ++ ("::".toList ++ tail) ∧
      readHead head = .ok (m.hasThis, m.returns, m.owner) ∧
      readTail tail = .ok (m.name, m.params) := by
  rw [read, String.toList_ofList, htrim] at h
  have h := mapError_eq_ok.1 h
  rw [readTrimmed] at h
  split at h
  · cases h
  · rename_i head tail hcut
    obtain ⟨⟨name, params⟩, htail, h⟩ := bind_eq_ok.1 h
    obtain ⟨⟨hasThis, returns, owner⟩, hhead, h⟩ := bind_eq_ok.1 h
    cases h
    exact ⟨head, tail, eq_of_cut? hcut, hhead, htail⟩

/-- The name and the parameters are written again as they were. -/
theorem respaced_tailText {tail gap : List Char} (h : readTail tail = .ok (m.name, m.params))
    (hgap : IsGap gap) :
    Respaced (gap ++ ("::".toList ++ tail)) ("::".toList ++ m.tailText) := by
  obtain ⟨rawName, rawParams, rfl, hname, hparams⟩ := exists_of_readTail h
  obtain ⟨before, behind, hbefore, hbehind, hraw⟩ := exists_gaps rawName
  have hopen : Quiet (behind ++ ['(']) := (quiet_of_isGap hbehind).append (by decide)
  have hparen : Separates ['('] := by decide
  have hcolons : Quiet (gap ++ ("::".toList ++ before)) :=
    (quiet_of_isGap hgap).append (.append (by decide) (quiet_of_isGap hbefore))
  have hlist : Respaced ((behind ++ ['(']) ++ (rawParams ++ [')'])) (['('] ++
      ([',', ' '].intercalate
        ((splitParams rawParams).map fun p => (readParam p).text.toList) ++ [')'])) :=
    @respaced_params 0 [] rawParams _ _ (by simp) (List.cons_ne_nil '(' []) hopen hparen
  have htext : m.tailText = trim rawName ++ (['('] ++ ([',', ' '].intercalate
      ((splitParams rawParams).map fun p => (readParam p).text.toList) ++ [')'])) := by
    rw [tailText, listText, hname, hparams, List.map_map]
    rfl
  have hraw' : gap ++ ("::".toList ++ (rawName ++ '(' :: (rawParams ++ [')']))) =
      (gap ++ ("::".toList ++ before)) ++
        (trim rawName ++ ((behind ++ ['(']) ++ (rawParams ++ [')']))) := by
    conv_lhs => rw [hraw]
    simp only [List.append_assoc, List.singleton_append]
  rw [hraw', htext]
  exact .exchange (by simp) (by simp) hcolons (by decide) (.append_left (trim rawName) hlist)

/-- **A signature is written again as it was read**, up to the separators
of its parts. -/
theorem respaced_text {cs : List Char} (htrim : trim cs = cs)
    (h : read (String.ofList cs) = .ok m) : Respaced cs m.text.toList := by
  obtain ⟨head, tail, rfl, hhead, htail⟩ := exists_of_read htrim h
  obtain ⟨gap, hgap, hfront⟩ := exists_gap_of_trim_append_left htrim
  have hwords : Respaced (trim head) m.headText := by
    rw [headText_eq_words hhead, ← words_trim]
    exact respaced_words (trim_trim head)
  have hall := hwords.append (respaced_tailText htail hgap)
  rwa [← List.append_assoc, ← hfront, ← toList_text (returns_ne_of_readHead hhead)] at hall

/-- It begins with a word and ends with a parenthesis. -/
theorem trim_text_of_read {cs : List Char} (htrim : trim cs = cs)
    (h : read (String.ofList cs) = .ok m) : trim m.text.toList = m.text.toList := by
  obtain ⟨head, tail, -, hhead, -⟩ := exists_of_read htrim h
  obtain ⟨ws, hne, -, hwords⟩ := exists_words_of_readHead hhead
  have hsome : words head ≠ [] := fun hnil => by simp [hnil] at hwords
  obtain ⟨c, cs, hcs, hc⟩ := exists_intercalate_eq_cons hsome fun w hw => isWord_of_mem_words hw
  rw [toList_text (returns_ne_of_readHead hhead), headText_eq_words hhead, hcs]
  refine trim_eq_self (fun d hd => ?_) fun d hd => ?_
  · cases hd
    exact hc
  · rw [tailText, listText, ← List.cons_append, ← List.append_assoc, ← List.append_assoc,
      ← List.append_assoc, List.getLast?_concat] at hd
    cases hd
    rfl

end Signature

end SmellCheck

import SmellCheck.Bytecode.Signature
import SmellCheck.Proofs.Outcome
import SmellCheck.Proofs.Text.Cutting
import Mathlib.Data.List.Infix
/-!
# Signatures and their written form

A signature is read back from its written form (`Signature.read_text`) if
its parts can be told apart in it: words for the types in front of the
name, no second pair of colons before the name, no parenthesis in the
name, and parameter types with balanced brackets and no comma outside of
them (`Signature.WellFormed`). So no two such signatures are written
alike.
-/

namespace SmellCheck

namespace Signature

/-! ## Brackets -/

/-- How many brackets are opened and not closed. -/
def depth (cs : List Char) : Int :=
  (cs.countP (· ∈ ['<', '[']) : Int) - cs.countP (· ∈ ['>', ']'])

/-- **Balanced brackets**, with commas only inside of them. -/
structure Balanced (cs : List Char) : Prop where
  /-- No bracket is closed that is not open. -/
  nonneg : ∀ u, u <+: cs → 0 ≤ depth u
  /-- In the end all are closed. -/
  closed : depth cs = 0
  /-- At a comma one is open. -/
  comma_inside : ∀ u, u ++ [','] <+: cs → 0 < depth u

instance : DecidablePred Balanced := fun cs =>
  decidable_of_iff
    ((∀ u ∈ cs.inits, 0 ≤ depth u) ∧ depth cs = 0 ∧
      ∀ u ∈ cs.inits, u ++ [','] ∈ cs.inits → 0 < depth u)
    ⟨fun ⟨hnonneg, hclosed, hcomma⟩ =>
      ⟨fun u hu => hnonneg u ((List.mem_inits u cs).2 hu), hclosed, fun u hu =>
        hcomma u ((List.mem_inits u cs).2 ((List.prefix_append u [',']).trans hu))
          ((List.mem_inits _ cs).2 hu)⟩,
    fun h => ⟨fun u hu => h.nonneg u ((List.mem_inits u cs).1 hu), h.closed, fun u _ hu =>
      h.comma_inside u ((List.mem_inits _ cs).1 hu)⟩⟩

theorem depth_append (u v : List Char) : depth (u ++ v) = depth u + depth v := by
  simp only [depth, List.countP_append, Int.natCast_add]
  omega

theorem depth_cons (c : Char) (cs : List Char) : depth (c :: cs) = depth [c] + depth cs :=
  depth_append [c] cs

theorem nesting_eq (d : Int) (c : Char) : nesting d c = d + depth [c] := by
  by_cases hopen : c = '<' ∨ c = '['
  · rcases hopen with rfl | rfl <;> rfl
  · by_cases hclose : c = '>' ∨ c = ']'
    · rcases hclose with rfl | rfl <;> rfl
    · simp [nesting, depth, hopen, hclose]

/-- Two balanced texts in a row. -/
theorem Balanced.append {u v : List Char} (hu : Balanced u) (hv : Balanced v) :
    Balanced (u ++ v) where
  nonneg w hw := by
    rcases List.prefix_or_prefix_of_prefix hw (List.prefix_append u v) with h | ⟨w, rfl⟩
    · exact hu.nonneg w h
    · have := hv.nonneg w ((List.prefix_append_right_inj u).1 hw)
      rw [depth_append, hu.closed]
      omega
  closed := by
    rw [depth_append, hu.closed, hv.closed]
    rfl
  comma_inside w hw := by
    rcases List.prefix_or_prefix_of_prefix hw (List.prefix_append u v) with h | h
    · exact hu.comma_inside w h
    · rcases List.prefix_concat_iff.1 h with rfl | ⟨w, rfl⟩
      · exact hu.comma_inside w (List.prefix_refl _)
      · rw [List.append_assoc] at hw
        have := hv.comma_inside w ((List.prefix_append_right_inj u).1 hw)
        rw [depth_append, hu.closed]
        omega

/-! ## Parameter lists -/

/-- A text without a comma outside of brackets goes on with the current
parameter. -/
theorem splitParamsAfter_append {d : Int} {t : List Char}
    (h : ∀ u, u ++ [','] <+: t → d + depth u ≠ 0) (current rest : List Char) :
    splitParamsAfter d current (t ++ rest) =
      splitParamsAfter (d + depth t) (t.reverse ++ current) rest := by
  induction t generalizing d current with
  | nil =>
    rw [show depth [] = 0 from rfl, Int.add_zero]
    rfl
  | cons c t ih =>
    have hc : ¬ (c = ',' ∧ d = 0) := by
      rintro ⟨rfl, rfl⟩
      exact h [] ⟨t, rfl⟩ rfl
    have hrest : ∀ u, u ++ [','] <+: t → nesting d c + depth u ≠ 0 := by
      intro u hu
      have := h (c :: u) (List.cons_prefix_cons.2 ⟨rfl, hu⟩)
      rw [depth_cons c u] at this
      rw [nesting_eq]
      omega
    have hdepth : nesting d c + depth t = d + depth (c :: t) := by
      rw [nesting_eq, depth_cons c t]
      omega
    rw [List.cons_append, splitParamsAfter, if_neg hc, ih hrest, hdepth, List.reverse_cons,
      List.append_assoc, List.singleton_append]

/-- A text that stands for one parameter in a list. -/
structure IsEntry (t : List Char) : Prop where
  ne_nil : t ≠ []
  trimmed : Text.trim t = t
  balanced : Balanced t

theorem IsEntry.splitParamsAfter {t : List Char} (h : IsEntry t) (current rest : List Char) :
    splitParamsAfter 0 current (t ++ rest) =
      Signature.splitParamsAfter 0 (t.reverse ++ current) rest := by
  have hcomma : ∀ u, u ++ [','] <+: t → 0 + depth u ≠ 0 := by
    intro u hu
    have := h.balanced.comma_inside u hu
    omega
  rw [splitParamsAfter_append hcomma, h.balanced.closed]
  rfl

/-- Blanks in front of a parameter do not belong to it. -/
theorem IsEntry.trim_reverse {t gap : List Char} (h : IsEntry t) (hgap : Text.IsGap gap) :
    Text.trim (t.reverse ++ gap).reverse = t := by
  have hfront : Text.IsGap gap.reverse := fun c hc => hgap c (List.mem_reverse.1 hc)
  have htrim : Text.trim (gap.reverse ++ t ++ []) = Text.trim t :=
    Text.trim_append_gap hfront Text.isGap_nil
  rw [List.append_nil, h.trimmed] at htrim
  rwa [List.reverse_append, List.reverse_reverse]

/-- A list of parameters is split into them again. -/
theorem splitParamsAfter_intercalate {ts : List (List Char)} (h : ∀ t ∈ ts, IsEntry t)
    {gap : List Char} (hgap : Text.IsGap gap) :
    splitParamsAfter 0 gap ([',', ' '].intercalate ts) = ts := by
  induction ts generalizing gap with
  | nil =>
    have hblank : Text.trim gap.reverse = [] :=
      Text.trim_of_isGap fun c hc => hgap c (List.mem_reverse.1 hc)
    rw [List.intercalate_nil, splitParamsAfter, hblank]
    rfl
  | cons t ts ih =>
    have ht : IsEntry t := h t List.mem_cons_self
    have hts : ∀ t ∈ ts, IsEntry t := fun u hu => h u (List.mem_cons_of_mem t hu)
    cases ts with
    | nil =>
      rw [List.intercalate_singleton, ← List.append_nil t, ht.splitParamsAfter, splitParamsAfter,
        ht.trim_reverse hgap]
      simp [ht.ne_nil]
    | cons u ts =>
      -- the space behind the comma comes in front of the next parameter
      have hrest := ih hts (Text.isGap_singleton rfl : Text.IsGap [' '])
      rw [List.intercalate_cons_cons, List.append_assoc, ht.splitParamsAfter]
      rw [List.cons_append, splitParamsAfter, if_pos ⟨rfl, rfl⟩, ht.trim_reverse hgap,
        List.singleton_append, splitParamsAfter, if_neg (by decide)]
      exact congrArg (t :: ·) hrest

end Signature

/-! ## Parameters -/

/-- **A parameter that can be told from its written form.** -/
structure Param.WellFormed (p : Param) : Prop where
  trimmed : Text.trim p.type.toList = p.type.toList
  balanced : Signature.Balanced p.type.toList
  no_keyword : ∀ keyword ∈ ["out ", "ref ", "[out] "], ¬ keyword.toList <+: p.type.toList
  /-- By value, the type is not empty and does not look like a reference. -/
  of_byValue : p.kind = .byValue → p.type ≠ "" ∧ ¬ ['&'] <:+ p.type.toList

instance : DecidablePred Param.WellFormed := fun p =>
  decidable_of_iff
    (Text.trim p.type.toList = p.type.toList ∧ Signature.Balanced p.type.toList ∧
      (∀ keyword ∈ ["out ", "ref ", "[out] "], ¬ keyword.toList <+: p.type.toList) ∧
      (p.kind = .byValue → p.type ≠ "" ∧ ¬ ['&'] <:+ p.type.toList))
    ⟨fun ⟨htrim, hbalanced, hkeyword, hvalue⟩ => ⟨htrim, hbalanced, hkeyword, hvalue⟩,
      fun h => ⟨h.trimmed, h.balanced, h.no_keyword, h.of_byValue⟩⟩

namespace Param.WellFormed

open Signature

variable {p : Param}

/-- A type with a reference mark stays trimmed. -/
theorem trim_type_mark (h : p.WellFormed) :
    Text.trim (p.type.toList ++ ['&']) = p.type.toList ++ ['&'] := by
  refine Text.trim_eq_self (fun c hc => ?_) (fun c hc => ?_)
  · cases htype : p.type.toList with
    | nil =>
      rw [htype] at hc
      cases hc
      rfl
    | cons d type =>
      rw [htype] at hc
      cases hc
      exact Text.isBlank_head_of_trim (htype ▸ h.trimmed)
  · rw [List.getLast?_concat] at hc
    cases hc
    rfl

/-- A type with a reference mark does not begin with a keyword either. -/
theorem not_keyword_mark (h : p.WellFormed) {keyword : String}
    (hkeyword : keyword ∈ ["out ", "ref ", "[out] "]) :
    ¬ keyword.toList <+: p.type.toList ++ ['&'] := by
  intro hmark
  rcases List.prefix_concat_iff.1 hmark with hlast | hprefix
  · have hspace : ∀ keyword ∈ ["out ", "ref ", "[out] "],
        keyword.toList.getLast? = some ' ' := by decide
    have hmarked := hspace keyword hkeyword
    rw [hlast, List.getLast?_concat] at hmarked
    cases hmarked
  · exact h.no_keyword keyword hkeyword hprefix

/-- The written form of a parameter stands for one entry of a list. -/
theorem isEntry_text (h : p.WellFormed) : IsEntry p.text.toList := by
  have hmark : Balanced ['&'] := by decide
  rw [Param.text]
  cases hkind : p.kind with
  | byValue =>
    refine ⟨fun hnil => (h.of_byValue hkind).1 ?_, h.trimmed, h.balanced⟩
    exact String.toList_injective hnil
  | byRef =>
    simp only [String.toList_append]
    exact ⟨by simp, h.trim_type_mark, h.balanced.append hmark⟩
  | out =>
    have hkeyword : Balanced "out ".toList := by decide
    simp only [String.toList_append]
    refine ⟨by simp, ?_, (hkeyword.append h.balanced).append hmark⟩
    refine Text.trim_eq_self (fun c hc => ?_) (fun c hc => ?_)
    · cases hc
      rfl
    · rw [show "&".toList = ['&'] from rfl, List.getLast?_concat] at hc
      cases hc
      rfl

/-- **A parameter is read back from its written form.** -/
theorem readParam_text (h : p.WellFormed) : readParam p.text.toList = p := by
  have hnone : ∀ keyword ∈ ["out ", "ref ", "[out] "],
      Text.after? keyword.toList p.type.toList = none ∧
        Text.after? keyword.toList (p.type.toList ++ ['&']) = none := by
    intro keyword hkeyword
    exact ⟨Text.after?_eq_none.2 (h.no_keyword keyword hkeyword),
      Text.after?_eq_none.2 (h.not_keyword_mark hkeyword)⟩
  have hout := hnone "out " (by decide)
  have href := hnone "ref " (by decide)
  have hbracket := hnone "[out] " (by decide)
  obtain ⟨type, kind⟩ := p
  cases kind with
  | byValue =>
    have hmark : ¬ Text.endsWith type.toList ['&'] = true := fun hmark =>
      (h.of_byValue rfl).2 (Text.endsWith_iff.1 hmark)
    simp only [Param.text, readParam, hout.1, href.1, hbracket.1, hmark]
    simp
  | byRef =>
    have hmark : Text.endsWith (type.toList ++ ['&']) ['&'] = true :=
      Text.endsWith_iff.2 (List.suffix_append _ _)
    simp only [Param.text, String.toList_append, show "&".toList = ['&'] from rfl, readParam,
      hout.2, href.2, hbracket.2, hmark, dropRefMark, Text.dropTail_append, String.ofList_toList]
    simp
  | out =>
    simp only [Param.text, String.toList_append, show "&".toList = ['&'] from rfl, readParam,
      List.append_assoc, Text.after?_append, typeAfterKeyword, h.trim_type_mark, dropRefMark,
      Text.dropTail_append, String.ofList_toList]

end Param.WellFormed

/-! ## Signatures -/

namespace Signature

/-- **A signature that can be told from its written form.** -/
structure WellFormed (m : Signature) : Prop where
  /-- The return type is one or more words with single spaces between
  them, and without a receiver the first is not the word for one. -/
  returns_words : ∃ ws : List (List Char), ws ≠ [] ∧ (∀ w ∈ ws, Text.IsWord w) ∧
    m.returns.toList = [' '].intercalate ws ∧
    (m.hasThis = false → ws.head? ≠ some "instance".toList)
  owner_word : Text.IsWord m.owner.toList
  no_colons : ¬ "::".toList <:+: (m.returns ++ " " ++ m.owner).toList
  no_colon_end : ¬ ":".toList <:+ (m.returns ++ " " ++ m.owner).toList
  name_ne : m.name ≠ ""
  name_trimmed : Text.trim m.name.toList = m.name.toList
  name_no_paren : '(' ∉ m.name.toList
  params : ∀ p ∈ m.params, p.WellFormed

/-- What is written in front of the two colons. -/
def headText (m : Signature) : List Char :=
  (if m.hasThis then "instance ".toList else []) ++ m.returns.toList ++ [' '] ++ m.owner.toList

/-- Parameters behind a name, as they are written. -/
def listText (name : List Char) (entries : List (List Char)) : List Char :=
  name ++ '(' :: ([',', ' '].intercalate entries ++ [')'])

/-- What is written behind the two colons. -/
def tailText (m : Signature) : List Char :=
  listText m.name.toList (m.params.map (·.text.toList))

/-- The return type has to be written. -/
theorem toList_text {m : Signature} (h : m.returns ≠ "") :
    m.text.toList = m.headText ++ ("::".toList ++ m.tailText) := by
  rw [text, headText, tailText, listText, fullName]
  cases m.hasThis <;>
    simp [h, String.toList_append, String.toList_intercalate, List.map_map, Function.comp_def]

namespace WellFormed

variable {m : Signature}

/-- The first two colons are those behind the declaring type. -/
theorem cut?_headText (h : m.WellFormed) (tail : List Char) :
    Text.cut? "::".toList (m.headText ++ ("::".toList ++ tail)) = some (m.headText, tail) := by
  have hpair : ∀ lead : List Char, ':' ∉ lead →
      ¬ [':', ':'] <:+: lead ++ (m.returns ++ " " ++ m.owner).toList := by
    intro lead hlead
    induction lead with
    | nil => exact h.no_colons
    | cons c lead ih =>
      intro hinfix
      rcases List.infix_cons_iff.1 hinfix with hprefix | hinfix
      · exact hlead ((List.cons_prefix_cons.1 hprefix).1 ▸ List.mem_cons_self)
      · exact ih (fun hc => hlead (List.mem_cons_of_mem c hc)) hinfix
  have hend : ∀ lead : List Char,
      ¬ [':'] <:+ lead ++ (m.returns ++ " " ++ m.owner).toList := by
    intro lead hsuffix
    have hne : (m.returns ++ " " ++ m.owner).toList ≠ [] := by simp
    rw [List.singleton_suffix_iff_getLast?_eq_some, List.getLast?_append_of_ne_nil _ hne,
      ← List.singleton_suffix_iff_getLast?_eq_some] at hsuffix
    exact h.no_colon_end hsuffix
  have hhead : m.headText = (if m.hasThis then "instance ".toList else []) ++
      (m.returns ++ " " ++ m.owner).toList := by
    rw [headText, String.toList_append, String.toList_append, List.append_assoc, List.append_assoc,
      List.append_assoc]
    rfl
  have hlead : ':' ∉ (if m.hasThis then "instance ".toList else []) := by
    cases m.hasThis <;> decide
  rw [hhead]
  exact Text.cut?_double (hpair _ hlead) (hend _)

/-- **The name and the parameters are read back**, however each parameter
is written. -/
theorem readTail_listText (h : m.WellFormed) {entries : List (List Char)}
    (hentries : ∀ t ∈ entries, IsEntry t) :
    readTail (listText m.name.toList entries) = .ok (m.name, entries.map readParam) := by
  have hcut : Text.cut? ['('] (listText m.name.toList entries) =
      some (m.name.toList, [',', ' '].intercalate entries ++ [')']) :=
    Text.cut?_singleton h.name_no_paren
  have hclose : Text.endsWith (listText m.name.toList entries) [')'] = true := by
    rw [listText, ← List.cons_append, ← List.append_assoc]
    exact Text.endsWith_iff.2 (List.suffix_append _ _)
  have hname : ¬ m.name.toList.isEmpty = true := by
    intro hnil
    exact h.name_ne (String.toList_injective (List.isEmpty_iff.1 hnil))
  rw [readTail, hcut]
  simp only [hclose, if_true, h.name_trimmed, if_neg hname, List.dropLast_concat, splitParams,
    splitParamsAfter_intercalate hentries Text.isGap_nil, String.ofList_toList]

/-- **The receiver and the types are read back.** -/
theorem readHead_headText (h : m.WellFormed) :
    readHead m.headText = .ok (m.hasThis, m.returns, m.owner) := by
  obtain ⟨ws, hne, hwords, hreturns, hfirst⟩ := h.returns_words
  have hbare : Text.words (m.returns.toList ++ [' '] ++ m.owner.toList) =
      ws ++ [m.owner.toList] := by
    rw [List.append_assoc, List.singleton_append, Text.words_append_cons rfl, hreturns,
      Text.words_intercalate hwords, Text.words_of_isWord h.owner_word]
  have htypes : " ".intercalate (ws.map String.ofList) = m.returns := by
    apply String.toList_injective
    rw [String.toList_intercalate, List.map_map, hreturns]
    simp
  -- the words without the receiver's, last one first
  obtain ⟨last, more, hlast⟩ : ∃ last more, (ws.map String.ofList).reverse = last :: more :=
    List.exists_cons_of_ne_nil (by simp [hne])
  have htypes' : " ".intercalate (last :: more).reverse = m.returns := by
    rw [← hlast, List.reverse_reverse, htypes]
  cases hthis : m.hasThis with
  | true =>
    have hhead : Text.words m.headText = "instance".toList :: (ws ++ [m.owner.toList]) := by
      have hword : Text.IsWord "instance".toList := by decide
      rw [← hbare, ← List.singleton_append, ← Text.words_of_isWord hword,
        ← Text.words_append_cons (c := ' ') rfl, headText, hthis]
      rfl
    simp only [readHead, hhead, List.map_cons, List.map_append, List.map_nil,
      String.ofList_toList, List.reverse_append, List.reverse_singleton, List.singleton_append,
      hlast, htypes']
  | false =>
    have hhead : Text.words m.headText = ws ++ [m.owner.toList] := by
      rw [headText, hthis]
      exact hbare
    have hplain : ∀ rest, ws.map String.ofList ++ [m.owner] ≠ "instance" :: rest := by
      intro rest hrest
      obtain ⟨w, ws, rfl⟩ := List.exists_cons_of_ne_nil hne
      have hw : String.ofList w = "instance" := (List.cons.inj hrest).1
      exact hfirst hthis (by rw [List.head?_cons, ← hw, String.toList_ofList])
    simp only [readHead, hhead, List.map_cons, List.map_append, List.map_nil,
      String.ofList_toList, List.reverse_append, List.reverse_singleton, List.singleton_append,
      hlast, htypes']

/-- The return type is not left out. -/
theorem returns_ne (h : m.WellFormed) : m.returns ≠ "" := by
  obtain ⟨ws, hne, hwords, hreturns, -⟩ := h.returns_words
  intro hnil
  rw [hnil] at hreturns
  have hnone : Text.words [] = ws := by
    rw [← Text.words_intercalate hwords, ← hreturns]
    rfl
  exact hne hnone.symm

/-- A signature begins with a word and ends with a parenthesis. -/
theorem trim_listText (h : m.WellFormed) (entries : List (List Char)) :
    Text.trim (m.headText ++ ("::".toList ++ listText m.name.toList entries)) =
      m.headText ++ ("::".toList ++ listText m.name.toList entries) := by
  obtain ⟨ws, hne, hwords, hreturns, -⟩ := h.returns_words
  obtain ⟨c, cs, hcs, hc⟩ := Text.exists_intercalate_eq_cons hne hwords
  refine Text.trim_eq_self (fun d hd => ?_) (fun d hd => ?_)
  · rw [headText, hreturns, hcs] at hd
    cases hthis : m.hasThis with
    | true =>
      rw [hthis] at hd
      cases hd
      rfl
    | false =>
      rw [hthis] at hd
      cases hd
      exact hc
  · rw [listText, ← List.cons_append, ← List.append_assoc, ← List.append_assoc,
      ← List.append_assoc, List.getLast?_concat] at hd
    cases hd
    rfl

/-- **A signature is read from its parts**, with the parameters that its
entries give. -/
theorem read_listText (h : m.WellFormed) {entries : List (List Char)}
    (hentries : ∀ t ∈ entries, IsEntry t) {s : String}
    (hs : s.toList = m.headText ++ ("::".toList ++ listText m.name.toList entries)) :
    read s = .ok { m with params := entries.map readParam } := by
  rw [read, hs, h.trim_listText]
  simp only [readTrimmed, h.cut?_headText, h.readTail_listText hentries, h.readHead_headText]
  rfl

/-- **A signature is read back from its written form.** -/
theorem read_text (h : m.WellFormed) : read m.text = .ok m := by
  have hentries : ∀ t ∈ m.params.map (·.text.toList), IsEntry t := by
    intro t ht
    obtain ⟨p, hp, rfl⟩ := List.mem_map.1 ht
    exact (h.params p hp).isEntry_text
  have hparams : (m.params.map (·.text.toList)).map readParam = m.params := by
    rw [List.map_map]
    exact (List.map_congr_left fun p hp => (h.params p hp).readParam_text).trans (List.map_id _)
  rw [h.read_listText hentries (toList_text h.returns_ne), hparams]

end WellFormed

/-- **Signatures are told apart by their written form.** -/
theorem eq_of_text_eq {m m' : Signature} (h : m.WellFormed) (h' : m'.WellFormed)
    (htext : m.text = m'.text) : m = m' := by
  have hread := h.read_text
  rw [htext, h'.read_text] at hread
  exact (Except.ok.inj hread).symm

end Signature

end SmellCheck

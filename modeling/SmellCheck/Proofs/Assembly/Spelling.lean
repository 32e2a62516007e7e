import SmellCheck.Proofs.Assembly.Load
import SmellCheck.Proofs.Bytecode.Signature
/-!
# Two spellings of a method

A method of a document gives its signature as one text or field by field.
To an entry of the second kind belongs the text in which every parameter
is its type, behind a keyword if it is not passed by value
(`MethodEntry.spelling`). Both spellings give a signature, and the two
agree in the receiver, the return type, the names and the types of all
parameters.

The kinds of the parameters are another matter. Both readers drop a
reference mark at the end of a type. In the text a mark without a keyword
makes the parameter a reference; field by field only the kind that is
given counts, and the mark is lost. So the spellings agree exactly if no
parameter that is passed by value has a mark
(`MethodEntry.spellings_agree_iff`).
-/

namespace SmellCheck

open Signature

/-! ## Parameters -/

namespace ParamEntry

/-- How the parameter is passed, by what the field says. -/
def passing (p : ParamEntry) : ParamKind :=
  (ParamKind.ofName? p.kind).getD .byValue

/-- The parameter as a signature has it. -/
def spelling (p : ParamEntry) : String :=
  match p.passing with
  | .byValue => p.type
  | .byRef => "ref " ++ p.type
  | .out => "out " ++ p.type

/-- **A parameter that can be written in a signature.** -/
structure WellFormed (p : ParamEntry) : Prop where
  type_ne : p.type ≠ ""
  trimmed : Text.trim p.type.toList = p.type.toList
  balanced : Balanced p.type.toList
  no_keyword : ∀ keyword ∈ ["out ", "ref ", "[out] "], ¬ keyword.toList <+: p.type.toList
  kind_known : (ParamKind.ofName? p.kind).isSome = true

instance : DecidablePred WellFormed := fun p =>
  decidable_of_iff
    (p.type ≠ "" ∧ Text.trim p.type.toList = p.type.toList ∧ Balanced p.type.toList ∧
      (∀ keyword ∈ ["out ", "ref ", "[out] "], ¬ keyword.toList <+: p.type.toList) ∧
      (ParamKind.ofName? p.kind).isSome = true)
    ⟨fun ⟨hne, htrim, hbalanced, hkeyword, hkind⟩ => ⟨hne, htrim, hbalanced, hkeyword, hkind⟩,
      fun h => ⟨h.type_ne, h.trimmed, h.balanced, h.no_keyword, h.kind_known⟩⟩

/-- The type has a reference mark, but the parameter is passed by value. -/
def IsMarkedValue (p : ParamEntry) : Prop :=
  p.passing = .byValue ∧ ['&'] <:+ p.type.toList

instance : DecidablePred IsMarkedValue := fun p =>
  inferInstanceAs (Decidable (p.passing = .byValue ∧ ['&'] <:+ p.type.toList))

/-- The type without a mark at its end. -/
def bareType (p : ParamEntry) : String :=
  String.ofList (dropRefMark p.type.toList)

/-- What the fields of a parameter give. -/
def ofFields (p : ParamEntry) : Param :=
  ⟨p.bareType, p.passing⟩

/-- What the text of a parameter gives. -/
def ofSpelling (p : ParamEntry) : Param :=
  ⟨p.bareType, if p.IsMarkedValue then .byRef else p.passing⟩

theorem ofFields_eq_ofSpelling {p : ParamEntry} :
    p.ofFields = p.ofSpelling ↔ ¬ p.IsMarkedValue := by
  rw [ofFields, ofSpelling]
  constructor
  · intro h hmarked
    rw [if_pos hmarked, hmarked.1] at h
    cases h
  · intro h
    rw [if_neg h]

namespace WellFormed

variable {p : ParamEntry}

/-- The fields are taken as they are, without the mark. -/
theorem param_eq (h : p.WellFormed) (fullName : String) :
    MethodEntry.param fullName p = .ok p.ofFields := by
  obtain ⟨kind, hkind⟩ := Option.isSome_iff_exists.1 h.kind_known
  simp only [MethodEntry.param, ofFields, passing, hkind, Option.getD_some]
  rfl

/-- A keyword in front of a type makes one entry of a list. -/
theorem isEntry_keyword (h : p.WellFormed) {keyword : List Char} (hbalanced : Balanced keyword)
    (hhead : ∃ c cs, keyword = c :: cs ∧ Text.isBlank c = false) :
    IsEntry (keyword ++ p.type.toList) := by
  obtain ⟨c, cs, rfl, hc⟩ := hhead
  refine ⟨List.cons_ne_nil c _, Text.trim_eq_self (fun d hd => ?_) (fun d hd => ?_),
    hbalanced.append h.balanced⟩
  · cases hd
    exact hc
  · have hne : p.type.toList ≠ [] := fun hnil => h.type_ne (String.toList_injective hnil)
    rw [List.getLast?_append_of_ne_nil _ hne] at hd
    obtain ⟨front, hfront⟩ := List.getLast?_eq_some_iff.1 hd
    exact Text.isBlank_last_of_trim (hfront ▸ h.trimmed)

/-- The text of a parameter stands for one entry of a list. -/
theorem isEntry_spelling (h : p.WellFormed) : IsEntry p.spelling.toList := by
  rw [spelling]
  cases p.passing with
  | byValue => exact ⟨fun hnil => h.type_ne (String.toList_injective hnil), h.trimmed, h.balanced⟩
  | byRef =>
    rw [String.toList_append]
    exact h.isEntry_keyword (by decide) ⟨'r', "ef ".toList, rfl, rfl⟩
  | out =>
    rw [String.toList_append]
    exact h.isEntry_keyword (by decide) ⟨'o', "ut ".toList, rfl, rfl⟩

/-- **The text of a parameter is read by its keyword, and without one by
its mark.** -/
theorem readParam_spelling (h : p.WellFormed) : readParam p.spelling.toList = p.ofSpelling := by
  have hout := Text.after?_eq_none.2 (h.no_keyword "out " (by decide))
  have href := Text.after?_eq_none.2 (h.no_keyword "ref " (by decide))
  have hbracket := Text.after?_eq_none.2 (h.no_keyword "[out] " (by decide))
  cases hpassing : p.passing with
  | byValue =>
    simp only [spelling, hpassing, readParam, hout, href, hbracket, ofSpelling, IsMarkedValue,
      true_and, ← Text.endsWith_iff]
    split
    · rfl
    · rename_i hmark
      rw [bareType, dropRefMark, Text.dropTail_eq_self fun hsuffix =>
        hmark (Text.endsWith_iff.2 hsuffix)]
  | byRef =>
    have hnotOut : ∀ t : List Char, Text.after? "out ".toList ("ref ".toList ++ t) = none :=
      fun t => Text.after?_eq_none.2 fun hprefix => by cases (List.cons_prefix_cons.1 hprefix).1
    have hnotBracket : ∀ t : List Char, Text.after? "[out] ".toList ("ref ".toList ++ t) = none :=
      fun t => Text.after?_eq_none.2 fun hprefix => by cases (List.cons_prefix_cons.1 hprefix).1
    simp only [spelling, hpassing, String.toList_append, readParam, hnotOut, hnotBracket,
      Text.after?_append, typeAfterKeyword, h.trimmed, ofSpelling, IsMarkedValue, bareType]
    simp
  | out =>
    simp only [spelling, hpassing, String.toList_append, readParam, Text.after?_append,
      typeAfterKeyword, h.trimmed, ofSpelling, IsMarkedValue, bareType]
    simp

end WellFormed

end ParamEntry

/-! ## Methods -/

namespace MethodEntry

/-- What the fields say apart from the parameters. -/
def bare (e : MethodEntry) : Signature :=
  ⟨e.type, e.name, !e.static, e.returns, []⟩

/-- The signature of a method whose fields are given, as one text. -/
def spelling (e : MethodEntry) : String :=
  (if e.static then "" else "instance ") ++ e.returns ++ " " ++ e.type ++ "::" ++ e.name ++
    "(" ++ ", ".intercalate (e.params.map ParamEntry.spelling) ++ ")"

/-- **A method that can be spelled in both ways.** -/
structure WellFormed (e : MethodEntry) : Prop where
  bare : e.bare.WellFormed
  params : ∀ p ∈ e.params, p.WellFormed

namespace WellFormed

variable {e e' : MethodEntry}

/-- **The signature of the fields.** -/
theorem toSignature_of_fields (h : e.WellFormed) (hfields : e.signature = "") :
    e.toSignature = .ok { e.bare with params := e.params.map ParamEntry.ofFields } := by
  have htype : e.type ≠ "" := fun hnil => h.bare.owner_word.1 (congrArg String.toList hnil)
  have hname : e.name ≠ "" := h.bare.name_ne
  have hparams : e.params.mapM (param (e.type ++ "::" ++ e.name)) =
      .ok (e.params.map ParamEntry.ofFields) := by
    refine mapM_of_forall₂ (List.forall₂_map_right_iff.2 (List.forall₂_same.2 fun p hp => ?_))
    exact (h.params p hp).param_eq _
  rw [toSignature, if_neg (not_not.2 hfields), if_neg (not_or.2 ⟨htype, hname⟩)]
  exact bind_eq_ok.2 ⟨_, hparams, rfl⟩

/-- **The signature of the text.** -/
theorem toSignature_of_spelling (h : e.WellFormed) (htext : e'.signature = e.spelling) :
    e'.toSignature = .ok { e.bare with params := e.params.map ParamEntry.ofSpelling } := by
  have hentries : ∀ t ∈ e.params.map (·.spelling.toList), IsEntry t := by
    intro t ht
    obtain ⟨p, hp, rfl⟩ := List.mem_map.1 ht
    exact (h.params p hp).isEntry_spelling
  have hparams : (e.params.map (·.spelling.toList)).map readParam =
      e.params.map ParamEntry.ofSpelling := by
    rw [List.map_map, List.map_inj_left]
    intro p hp
    rw [Function.comp_apply, (h.params p hp).readParam_spelling]
  have hspelling : e.spelling.toList = e.bare.headText ++ ("::".toList ++
      listText e.bare.name.toList (e.params.map (·.spelling.toList))) := by
    rw [spelling, headText, listText, MethodEntry.bare]
    cases e.static <;>
      simp [String.toList_append, String.toList_intercalate, List.map_map, Function.comp_def]
  have hne : e'.signature ≠ "" := by
    rw [htext]
    intro hnil
    rw [hnil] at hspelling
    exact List.cons_ne_nil _ _ (List.append_eq_nil_iff.1 hspelling.symm).2
  rw [toSignature, if_pos hne, htext, mapError_eq_ok, h.bare.read_listText hentries hspelling,
    hparams]

end WellFormed

/-- The same signature, slots and listing give the same method. -/
theorem toMethod_congr {e e' : MethodEntry} (hsignature : e.toSignature = e'.toSignature)
    (hattributes : e.attributes = e'.attributes) (hlocals : e.locals = e'.locals)
    (hbody : e.body = e'.body) : e.toMethod = e'.toMethod := by
  rw [toMethod, toMethod, hsignature, hattributes, hlocals, hbody]

/-- **The two spellings of a method agree, but for marks on parameters by
value.** Both give a signature, with the same receiver, return type, names
and parameter types. The kinds are the given ones field by field; in the
text a marked parameter without a keyword is a reference. So the
signatures are equal exactly if there is no such parameter, and then the
methods are. -/
theorem spellings_agree_iff {e e' : MethodEntry} (h : e.WellFormed) (hfields : e.signature = "")
    (htext : e'.signature = e.spelling) :
    ∃ s s', e.toSignature = .ok s ∧ e'.toSignature = .ok s' ∧
      s.hasThis = s'.hasThis ∧ s.returns = s'.returns ∧ s.owner = s'.owner ∧ s.name = s'.name ∧
      s.params.map (·.type) = s'.params.map (·.type) ∧
      s.params.map (·.kind) = e.params.map (·.passing) ∧
      s'.params.map (·.kind) = e.params.map (fun p =>
        if p.IsMarkedValue then .byRef else p.passing) ∧
      (s = s' ↔ ∀ p ∈ e.params, ¬ p.IsMarkedValue) ∧
      ((∀ p ∈ e.params, ¬ p.IsMarkedValue) → e.attributes = e'.attributes →
        e.locals = e'.locals → e.body = e'.body → e.toMethod = e'.toMethod) := by
  have hs := h.toSignature_of_fields hfields
  have hs' := h.toSignature_of_spelling htext
  have hparams : e.params.map ParamEntry.ofFields = e.params.map ParamEntry.ofSpelling ↔
      ∀ p ∈ e.params, ¬ p.IsMarkedValue := by
    simp only [List.map_inj_left, ParamEntry.ofFields_eq_ofSpelling]
  refine ⟨_, _, hs, hs', rfl, rfl, rfl, rfl, ?_, ?_, ?_, ?_, ?_⟩
  · simp only [List.map_map, Function.comp_def, ParamEntry.ofFields, ParamEntry.ofSpelling]
  · simp only [List.map_map, Function.comp_def, ParamEntry.ofFields]
  · simp only [List.map_map, Function.comp_def, ParamEntry.ofSpelling]
  · rw [← hparams]
    simp
  · intro hnone
    exact toMethod_congr (by rw [hs, hs', hparams.2 hnone])

/-- The entry with its signature as one text. -/
def respelled (e : MethodEntry) : MethodEntry :=
  { e with signature := e.spelling }

/-- A method of an object, with a return type of two words. -/
def objectEntry (params : List ParamEntry) : MethodEntry where
  signature := ""
  type := "T"
  name := "M"
  static := false
  returns := "class X"
  params
  attributes := []
  locals := 0
  body := "ret"

theorem wellFormed_objectEntry {params : List ParamEntry} (h : ∀ p ∈ params, p.WellFormed) :
    (objectEntry params).WellFormed where
  bare := show (objectEntry []).bare.WellFormed from {
    returns_words := ⟨["class".toList, "X".toList], by decide, by decide, by decide, by decide⟩
    owner_word := by decide
    no_colons := by decide
    no_colon_end := by decide
    name_ne := by decide
    name_trimmed := by decide
    name_no_paren := by decide
    params := by decide }
  params := h

/-- Parameters of each kind, of which the reference has a mark. -/
def mixedParams : List ParamEntry :=
  [⟨"D<K,V[]>", ""⟩, ⟨"A", "in"⟩, ⟨"A&", "ref"⟩, ⟨"B", "out"⟩]

theorem spellings_agree_iff_mixedParams :
    (objectEntry mixedParams).WellFormed ∧
      (objectEntry mixedParams).spelling = "instance class X T::M(D<K,V[]>, A, ref A&, out B)" ∧
      (∃ s, (objectEntry mixedParams).toSignature = .ok s ∧
        (objectEntry mixedParams).respelled.toSignature = .ok s) ∧
      (objectEntry mixedParams).toMethod = (objectEntry mixedParams).respelled.toMethod := by
  have hentry : (objectEntry mixedParams).WellFormed := wellFormed_objectEntry (by decide)
  have htext : (objectEntry mixedParams).respelled.signature = (objectEntry mixedParams).spelling :=
    rfl
  have hnone : ∀ p ∈ mixedParams, ¬ p.IsMarkedValue := by decide
  obtain ⟨s, s', hs, hs', -, -, -, -, -, -, -, hiff, hmethod⟩ :=
    spellings_agree_iff hentry rfl htext
  obtain rfl := hiff.2 hnone
  exact ⟨hentry, by decide, ⟨s, hs, hs'⟩, hmethod hnone rfl rfl rfl⟩

/-! ## A mark that is lost -/

/-- A parameter with a mark and no kind. -/
def markedParam : ParamEntry :=
  ⟨"int32&", ""⟩

/-- **A mark without a kind is lost field by field.** The text makes the
same parameter a reference. -/
theorem exists_kind_ne_of_mark :
    (objectEntry [markedParam]).WellFormed ∧
      ∃ m m', (objectEntry [markedParam]).toMethod = .ok m ∧
        (objectEntry [markedParam]).respelled.toMethod = .ok m' ∧
        m.signature.params = [⟨"int32", .byValue⟩] ∧
        m'.signature.params = [⟨"int32", .byRef⟩] ∧ m.signature ≠ m'.signature := by
  have hfields : ((objectEntry [markedParam]).toMethod.toOption.any fun m =>
      m.signature.params == [⟨"int32", .byValue⟩]) = true := by decide +kernel
  have htext : ((objectEntry [markedParam]).respelled.toMethod.toOption.any fun m =>
      m.signature.params == [⟨"int32", .byRef⟩]) = true := by decide +kernel
  obtain ⟨m, hm, hparams⟩ := (Option.any_eq_true _ _).1 hfields
  obtain ⟨m', hm', hparams'⟩ := (Option.any_eq_true _ _).1 htext
  refine ⟨wellFormed_objectEntry (by decide), m, m', toOption_eq_some.1 hm,
    toOption_eq_some.1 hm', eq_of_beq hparams, eq_of_beq hparams', fun heq => ?_⟩
  rw [heq, eq_of_beq hparams'] at hparams
  cases hparams

end MethodEntry

end SmellCheck

import SmellCheck.Proofs.Json.Validity
import SmellCheck.Report.Schema
/-!
# What the schema of reports admits

Each form of schema is written as keywords, and these together admit what
the form stands for: a text, a number from a least one on, an array whose
items another schema admits, and so on. In the schema of reports,
references lead to the definitions that it comes with (`valid_refJson`).

The schema is published as a text, laid out by rules of its own. This
text writes the schema (`isText_reportText`).
-/

namespace SmellCheck.Schema

open JsonValue

variable {document v : JsonValue}

/-! ## Forms of schemas -/

/-- Every schema is written as keywords. -/
theorem exists_keywords (s : Schema) : ∃ keywords, s.toJson = .object keywords := by
  cases s <;> exact ⟨_, rfl⟩

theorem membersJson_eq (members : List (String × Schema)) :
    membersJson members = members.map fun member => (member.1, member.2.toJson) := by
  induction members with
  | nil => rfl
  | cons member members ih => exact congrArg (List.cons _) ih

/-- A schema without keywords admits everything. -/
theorem valid_nil : Valid document (.object []) v :=
  .intro ⟨by simp, by simp, by simp, by simp, by simp, by simp, by simp⟩ (by simp) (by simp)
    (by simp) (by simp) (by simp)

/-- **A value of the type that meets the other keywords.** A description
demands nothing. -/
theorem valid_typed {type description : String} {members : List (String × JsonValue)}
    (htype : type ∈ v.typeNames) (h : Valid document (.object members) v) :
    Valid document (typed type members description) v := by
  have htyped : Valid document (.object (("type", .string type) :: members)) v :=
    (valid_type htype).append h
  rw [typed]
  split
  · exact htyped.append valid_nil
  · exact htyped.append (valid_description description)

theorem valid_text (description s : String) :
    Valid document (text description).toJson (.string s) := by
  change Valid document (typed "string" _ _) _
  exact valid_typed List.mem_cons_self valid_nil

theorem valid_oneOf {choices : List String} {s : String} (h : s ∈ choices) :
    Valid document (oneOf choices).toJson (.string s) := by
  change Valid document (typed "string" _ _) _
  refine valid_typed List.mem_cons_self (valid_enum ?_)
  exact List.mem_map.2 ⟨s, h, rfl⟩

theorem valid_patternJson {regex description s : String} (h : IsMatch regex s) :
    Valid document (pattern regex description).toJson (.string s) := by
  change Valid document (typed "string" _ _) _
  exact valid_typed List.mem_cons_self (valid_pattern h)

theorem valid_integer {minimum : Option Int} {description : String} {i : Int}
    (h : ∀ least, minimum = some least → least ≤ i) :
    Valid document (integer minimum description).toJson (.int i) := by
  change Valid document (typed "integer" _ _) _
  refine valid_typed List.mem_cons_self ?_
  cases minimum with
  | none => exact valid_nil
  | some least => exact valid_minimum (h least rfl)

theorem valid_boolean (description : String) (b : Bool) :
    Valid document (boolean description).toJson (.bool b) := by
  change Valid document (typed "boolean" _ _) _
  exact valid_typed List.mem_cons_self valid_nil

theorem valid_array {items : Schema} {description : String} {values : List JsonValue}
    (h : ∀ value ∈ values, Valid document items.toJson value) :
    Valid document (array items description).toJson (.array values) := by
  change Valid document (typed "array" [("items", items.toJson)] _) _
  obtain ⟨keywords, hkeywords⟩ := exists_keywords items
  rw [hkeywords] at h ⊢
  exact valid_typed List.mem_cons_self (valid_items h)

/-- What is found under a key is all that there is under it, if no key is
there twice. -/
theorem eq_of_lookup_eq_some {members : List (String × Schema)}
    (hnodup : (members.map (·.1)).Nodup) {key : String} {s s' : Schema}
    (hlookup : members.lookup key = some s) (hmem : (key, s') ∈ members) : s' = s := by
  induction members with
  | nil => cases hmem
  | cons member members ih =>
    obtain ⟨name, schema⟩ := member
    obtain ⟨hname, hnodup⟩ := List.nodup_cons.1 hnodup
    rcases List.mem_cons.1 hmem with heq | hmem
    · cases heq
      rw [List.lookup_cons_self] at hlookup
      exact Option.some.inj hlookup
    · have hne : (key == name) = false := by
        refine beq_false_of_ne fun heq => hname ?_
        exact List.mem_map.2 ⟨(key, s'), hmem, heq⟩
      rw [List.lookup_cons, hne] at hlookup
      exact ih hnodup hlookup hmem

/-- The members of an object are admitted by the schemas under their
keys. -/
theorem valid_membersJson {members : List (String × Schema)} {values : List (String × JsonValue)}
    (hnodup : (members.map (·.1)).Nodup)
    (h : ∀ value ∈ values, ∃ s, members.lookup value.1 = some s ∧
      Valid document s.toJson value.2) :
    Valid document (.object [("properties", .object (membersJson members))]) (.object values) := by
  refine valid_properties fun key schema value hschema hvalue => ?_
  rw [membersJson_eq] at hschema
  obtain ⟨⟨key', s⟩, hs, heq⟩ := List.mem_map.1 hschema
  cases heq
  obtain ⟨s', hlookup, hvalid⟩ := h (key', value) hvalue
  rw [eq_of_lookup_eq_some hnodup hlookup hs]
  exact hvalid

theorem valid_object {required : List String} {members : List (String × Schema)}
    {values : List (String × JsonValue)} (hnodup : (members.map (·.1)).Nodup)
    (hrequired : ∀ key ∈ required, key ∈ values.map (·.1))
    (hmembers : ∀ value ∈ values, ∃ s, members.lookup value.1 = some s ∧
      Valid document s.toJson value.2) :
    Valid document (object required members).toJson (.object values) := by
  change Valid document (typed "object" _ _) _
  exact valid_typed List.mem_cons_self
    ((valid_required hrequired).append (valid_membersJson hnodup hmembers))

theorem valid_counts {keys : Schema} {counts : List (String × Int)}
    (h : ∀ count ∈ counts, Valid document keys.toJson (.string count.1)) :
    Valid document (Schema.counts keys).toJson
      (.object (counts.map fun count => (count.1, .int count.2))) := by
  change Valid document (typed "object" [("propertyNames", keys.toJson), _] _) _
  obtain ⟨keywords, hkeywords⟩ := exists_keywords keys
  rw [hkeywords] at h ⊢
  refine valid_typed List.mem_cons_self ((valid_propertyNames fun key value hmem => ?_).append
    (valid_additionalProperties fun key value hmem => ?_))
  · obtain ⟨count, hcount, heq⟩ := List.mem_map.1 hmem
    cases heq
    exact h count hcount
  · obtain ⟨count, hcount, heq⟩ := List.mem_map.1 hmem
    cases heq
    exact (valid_type List.mem_cons_self).append valid_nil

/-! ## The schema of reports -/

theorem definitions_reportJson : reportJson.definitions = membersJson definitions := rfl

/-- **A reference in the schema of reports** leads to its definition. -/
theorem valid_refJson {name : String} {s : Schema} (hs : definitions.lookup name = some s)
    (h : Valid reportJson s.toJson v) : Valid reportJson (ref name).toJson v := by
  have hnodup : (definitions.map (·.1)).Nodup := by decide
  change Valid reportJson (refJson name) v
  rw [refJson]
  refine valid_ref ?_ fun schema hschema => ?_
  · obtain ⟨before, after, hdefinitions, -⟩ := List.lookup_eq_some_iff.1 hs
    rw [definitions_reportJson, membersJson_eq, List.map_map, hdefinitions]
    simp
  · rw [definitions_reportJson, membersJson_eq] at hschema
    obtain ⟨⟨name', s'⟩, hs', heq⟩ := List.mem_map.1 hschema
    cases heq
    rw [eq_of_lookup_eq_some hnodup hs hs']
    exact h

/-- A keyword that says nothing about values. -/
theorem valid_remark {name : String} {demand : JsonValue}
    (hname : isKeyword (name, demand) = true)
    (hother : name ∉ ["$ref", "type", "enum", "pattern", "minimum", "required", "items",
      "properties", "propertyNames", "additionalProperties"]) :
    Valid document (.object [(name, demand)]) v :=
  valid_singleton (meets_singleton hname (by simp_all)) (by simp_all)

/-- **What is valid as a report.** -/
theorem valid_reportJson {values : List (String × JsonValue)}
    (hrequired : ∀ key ∈ reportRequired, key ∈ values.map (·.1))
    (hmembers : ∀ value ∈ values, ∃ s, reportMembers.lookup value.1 = some s ∧
      Valid reportJson s.toJson value.2) :
    Valid reportJson reportJson (.object values) := by
  have hobject : "object" ∈ (JsonValue.object values).typeNames := List.mem_cons_self
  -- only three of the keywords demand anything
  change Valid reportJson (.object ([("$schema", _)] ++ ([("$id", _)] ++ ([("title", _)] ++
    ([("description", _)] ++ ([("type", _)] ++ ([("required", _)] ++ ([("properties", _)] ++
      [("$defs", _)])))))))) _
  refine .append (valid_remark rfl (by simp)) (.append (valid_remark rfl (by simp))
    (.append (valid_remark rfl (by simp)) (.append (valid_description _)
      (.append (valid_type hobject) (.append (valid_required hrequired)
        (.append (valid_membersJson (by decide) hmembers) (valid_remark rfl (by simp))))))))

/-! ## The published text -/

mutual

/-- The items of arrays are no collections, in the value and all of its
parts. -/
def hasFlatArrays : JsonValue → Bool
  | .array items => items.all isAtom
  | .object members => haveFlatArrays members
  | _ => true

/-- The arrays in the members are flat. -/
def haveFlatArrays : List (String × JsonValue) → Bool
  | [] => true
  | (_, value) :: members => hasFlatArrays value && haveFlatArrays members

end

/-- A value that is no collection is written as such. -/
theorem form_of_isAtom (h : isAtom v = true) : Form v v.atomText.toList := by
  refine form_atomText (fun items hv => ?_) fun members hv => ?_
  · rw [hv] at h
    cases h
  · rw [hv] at h
    cases h

/-- Texts on one line are separated. -/
theorem separated_line {texts : List (List Char)} {before after : List Char}
    (hbefore : IsBlank before) (hafter : IsBlank after) (hne : texts ≠ []) :
    Separated texts (before ++ [',', ' '].intercalate texts ++ after) := by
  have hblank : IsBlank [' '] := Text.forall_mem_of_all (by decide)
  induction texts generalizing before with
  | nil => exact absurd rfl hne
  | cons text texts ih =>
    cases texts with
    | nil =>
      rw [List.intercalate_singleton]
      exact .one hbefore hafter
    | cons next texts =>
      have hform : Separated (text :: next :: texts) _ :=
        .cons hbefore isBlank_nil (ih hblank (List.cons_ne_nil next texts))
      rw [List.intercalate_cons_cons]
      simpa using hform

/-- **Texts on one line between brackets are enclosed**, with the same
blanks before the first and behind the last. -/
theorem enclosed_line {texts : List (List Char)} {opening closing : Char} {blanks : List Char}
    (hblanks : IsBlank blanks) :
    Enclosed opening closing texts
      (opening :: blanks ++ [',', ' '].intercalate texts ++ blanks ++ [closing]) := by
  cases texts with
  | nil =>
    have hform : Enclosed opening closing [] _ := .none (hblanks.append hblanks)
    simpa using hform
  | cons text texts =>
    have hform : Enclosed opening closing (text :: texts) _ :=
      .some (separated_line hblanks hblanks (List.cons_ne_nil text texts))
    simpa using hform

mutual

/-- **The layout of a schema writes it**, if its arrays are flat. -/
theorem form_layOut {indent : String} (hindent : IsBlank indent.toList) {v : JsonValue}
    (h : hasFlatArrays v = true) : Form v (layOut indent v).toList := by
  cases v with
  | array items =>
    have hitems : List.Forall₂ Form items ((items.map atomText).map (·.toList)) := by
      rw [List.map_map, List.forall₂_map_right_iff, List.forall₂_same]
      exact fun item hitem => form_of_isAtom (List.all_eq_true.1 h item hitem)
    refine .array hitems ?_
    have hline : Enclosed '[' ']' ((items.map atomText).map (·.toList)) _ :=
      enclosed_line isBlank_nil
    simpa [layOut, String.toList_append, String.toList_intercalate] using hline
  | object members =>
    refine .object (forall₂_layOutMembers (isBlank_deeper hindent) h) ?_
    simp only [layOut]
    split
    · have hblank : IsBlank [' '] := Text.forall_mem_of_all (by decide)
      have hline : Enclosed '\x7b' '\x7d'
          ((layOutMembers (indent ++ "  ") members).map (·.toList)) _ := enclosed_line hblank
      simpa [String.toList_append, String.toList_intercalate] using hline
    · exact enclosed_bracketed rfl rfl hindent _
  | _ =>
    rw [layOut]
    · exact form_of_isAtom rfl
    · simp
    · simp

theorem forall₂_layOutMembers {indent : String} (hindent : IsBlank indent.toList)
    {members : List (String × JsonValue)} (h : haveFlatArrays members = true) :
    List.Forall₂ MemberForm members ((layOutMembers indent members).map (·.toList)) := by
  cases members with
  | nil => exact .nil
  | cons member members =>
    obtain ⟨key, value⟩ := member
    obtain ⟨hvalue, hmembers⟩ := Bool.and_eq_true_iff.1 h
    exact .cons (memberForm (form_layOut hindent hvalue)) (forall₂_layOutMembers hindent hmembers)

end

/-- **The published text is the schema of reports.** -/
theorem isText_reportText : IsText reportJson reportText := by
  have hflat : hasFlatArrays reportJson = true := by decide
  have hindent : IsBlank "".toList := isBlank_nil
  exact (form_layOut hindent hflat).isText

end SmellCheck.Schema

import SmellCheck.Proofs.Json.Grammar
/-!
# Valid JSON values

When a JSON value is valid against a JSON schema, which is a JSON value
itself: its members are keywords, and each of them demands something of
the value or of its parts (`Valid`). A schema may refer to definitions of
the document that it stands in.

Only keywords of a small vocabulary have a meaning here, and a schema
with any other keyword has no valid values. So nothing is valid because a
demand was not understood.
-/

namespace SmellCheck.JsonValue

/-! ## Patterns -/

/-- A class of characters, and how many of them stand in a row. -/
structure Part where
  ranges : List (Char × Char)
  count : Nat

/-- **What a pattern up to its end means**: characters that stand for
themselves, and classes of characters with a count. -/
inductive PatternForm : List Part → List Char → Prop
  | done : PatternForm [] ['$']
  | char {c : Char} {parts : List Part} {cs : List Char}
      (hc : c ∉ ['\\', '^', '$', '.', '|', '?', '*', '+', '(', ')', '[', ']', '\x7b', '\x7d'])
      (hrest : PatternForm parts cs) : PatternForm (⟨[(c, c)], 1⟩ :: parts) (c :: cs)
  | chars {ranges : List (Char × Char)} {count : Nat} {digits cs : List Char} {parts : List Part}
      (hranges : ∀ range ∈ ranges, range.1 ∉ ['\\', '^', '-', ']'] ∧ range.2 ∉ ['\\', '-', ']'])
      (hcount : DigitsForm count digits) (hrest : PatternForm parts cs) :
      PatternForm (⟨ranges, count⟩ :: parts)
        ('[' :: ranges.flatMap (fun range => [range.1, '-', range.2]) ++
          (']' :: '\x7b' :: digits ++ '\x7d' :: cs))

/-- The text is made up as the parts say. -/
inductive Fits : List Part → List Char → Prop
  | nil : Fits [] []
  | cons {part : Part} {parts : List Part} {piece rest : List Char}
      (hlength : piece.length = part.count)
      (hpiece : ∀ c ∈ piece, ∃ range ∈ part.ranges, range.1 ≤ c ∧ c ≤ range.2)
      (hrest : Fits parts rest) : Fits (part :: parts) (piece ++ rest)

/-- **The whole text is as the pattern says**, from its beginning to its
end. -/
def IsMatch (pattern s : String) : Prop :=
  ∃ parts cs, pattern.toList = '^' :: cs ∧ PatternForm parts cs ∧ Fits parts s.toList

/-! ## Keywords -/

/-- The names of the types that a value has. -/
def typeNames : JsonValue → List String
  | null => ["null"]
  | bool _ => ["boolean"]
  | int _ => ["integer", "number"]
  | string _ => ["string"]
  | array _ => ["array"]
  | object _ => ["object"]

/-- The definitions of a document. -/
def definitions : JsonValue → List (String × JsonValue)
  | object members =>
    members.flatMap fun
      | ("$defs", object definitions) => definitions
      | _ => []
  | _ => []

/-- The keywords that have a meaning, with values of the kind that they
ask for. Some say nothing about values. -/
def isKeyword : String × JsonValue → Bool
  | ("$schema", string _) | ("$id", string _) | ("title", string _) | ("description", string _) =>
    true
  | ("$defs", object _) | ("$ref", string _) => true
  | ("type", string _) | ("enum", array _) | ("pattern", string _) | ("minimum", int _) => true
  | ("required", array keys) => keys.all fun
    | string _ => true
    | _ => false
  | ("properties", object _) | ("items", object _) => true
  | ("propertyNames", object _) | ("additionalProperties", object _) => true
  | _ => false

/-- **What keywords demand of a value as a whole.** -/
structure Meets (document : JsonValue) (keywords : List (String × JsonValue)) (v : JsonValue) :
    Prop where
  known : ∀ keyword ∈ keywords, isKeyword keyword = true
  /-- What is referred to is there. -/
  defined : ∀ target, ("$ref", string target) ∈ keywords →
    ∃ name ∈ document.definitions.map (·.1), target = "#/$defs/" ++ name
  type_mem : ∀ type, ("type", string type) ∈ keywords → type ∈ v.typeNames
  enum_mem : ∀ choices, ("enum", array choices) ∈ keywords → v ∈ choices
  pattern_match : ∀ pattern s, ("pattern", string pattern) ∈ keywords → v = string s →
    IsMatch pattern s
  minimum_le : ∀ minimum i, ("minimum", int minimum) ∈ keywords → v = int i → minimum ≤ i
  required_mem : ∀ keys members, ("required", array keys) ∈ keywords → v = object members →
    ∀ key, string key ∈ keys → key ∈ members.map (·.1)

/-- **The value is valid against the schema**, which stands in the
document. -/
inductive Valid (document : JsonValue) : JsonValue → JsonValue → Prop
  | intro {keywords : List (String × JsonValue)} {v : JsonValue}
      (hmeets : Meets document keywords v)
      (href : ∀ name schema, ("$ref", string ("#/$defs/" ++ name)) ∈ keywords →
        (name, schema) ∈ document.definitions → Valid document schema v)
      (hitems : ∀ schema items, ("items", schema) ∈ keywords → v = array items →
        ∀ item ∈ items, Valid document schema item)
      (hproperties : ∀ properties members, ("properties", object properties) ∈ keywords →
        v = object members → ∀ key schema value, (key, schema) ∈ properties →
          (key, value) ∈ members → Valid document schema value)
      (hnames : ∀ schema members, ("propertyNames", schema) ∈ keywords → v = object members →
        ∀ key value, (key, value) ∈ members → Valid document schema (string key))
      (hadditional : ∀ schema members, ("additionalProperties", schema) ∈ keywords →
        v = object members → ∀ key value, (key, value) ∈ members →
          (∀ properties, ("properties", object properties) ∈ keywords →
            key ∉ properties.map (·.1)) → Valid document schema value) :
      Valid document (object keywords) v

/-! ## Keyword by keyword -/

variable {document v : JsonValue}

/-- **Keywords demand one by one.** -/
theorem Valid.append {keywords more : List (String × JsonValue)}
    (h : Valid document (object keywords) v) (hmore : Valid document (object more) v) :
    Valid document (object (keywords ++ more)) v := by
  obtain ⟨hmeets, href, hitems, hproperties, hnames, hadditional⟩ := h
  obtain ⟨hmeets', href', hitems', hproperties', hnames', hadditional'⟩ := hmore
  refine .intro
    { known := fun keyword hmem =>
        (List.mem_append.1 hmem).elim (hmeets.known keyword) (hmeets'.known keyword)
      defined := fun target hmem =>
        (List.mem_append.1 hmem).elim (hmeets.defined target) (hmeets'.defined target)
      type_mem := fun type hmem =>
        (List.mem_append.1 hmem).elim (hmeets.type_mem type) (hmeets'.type_mem type)
      enum_mem := fun choices hmem =>
        (List.mem_append.1 hmem).elim (hmeets.enum_mem choices) (hmeets'.enum_mem choices)
      pattern_match := fun pattern s hmem =>
        (List.mem_append.1 hmem).elim (hmeets.pattern_match pattern s)
          (hmeets'.pattern_match pattern s)
      minimum_le := fun minimum i hmem =>
        (List.mem_append.1 hmem).elim (hmeets.minimum_le minimum i) (hmeets'.minimum_le minimum i)
      required_mem := fun keys members hmem =>
        (List.mem_append.1 hmem).elim (hmeets.required_mem keys members)
          (hmeets'.required_mem keys members) }
    (fun name schema hmem => (List.mem_append.1 hmem).elim (href name schema) (href' name schema))
    (fun schema items hmem =>
      (List.mem_append.1 hmem).elim (hitems schema items) (hitems' schema items))
    (fun properties members hmem =>
      (List.mem_append.1 hmem).elim (hproperties properties members)
        (hproperties' properties members))
    (fun schema members hmem =>
      (List.mem_append.1 hmem).elim (hnames schema members) (hnames' schema members))
    fun schema members hmem hv key value hvalue hkey => ?_
  -- what neither part has among its properties is additional to each of them
  rcases List.mem_append.1 hmem with hmem | hmem
  · exact hadditional schema members hmem hv key value hvalue fun properties hproperties =>
      hkey properties (List.mem_append_left more hproperties)
  · exact hadditional' schema members hmem hv key value hvalue fun properties hproperties =>
      hkey properties (List.mem_append_right keywords hproperties)

/-- A keyword that demands nothing of parts. -/
theorem valid_singleton {name : String} {demand : JsonValue} (h : Meets document [(name, demand)] v)
    (hname : name ∉ ["$ref", "items", "properties", "propertyNames", "additionalProperties"]) :
    Valid document (object [(name, demand)]) v := by
  have hother : ∀ {key : String} {value : JsonValue}, (key, value) ∈ [(name, demand)] →
      key ∈ ["$ref", "items", "properties", "propertyNames", "additionalProperties"] → False := by
    intro key value hmem hkey
    cases List.mem_singleton.1 hmem
    exact hname hkey
  exact .intro h (fun _ _ hmem => (hother hmem (by simp)).elim)
    (fun _ _ hmem => (hother hmem (by simp)).elim) (fun _ _ hmem => (hother hmem (by simp)).elim)
    (fun _ _ hmem => (hother hmem (by simp)).elim) (fun _ _ hmem => (hother hmem (by simp)).elim)

theorem valid_type {type : String} (h : type ∈ v.typeNames) :
    Valid document (object [("type", string type)]) v :=
  valid_singleton ⟨List.forall_mem_singleton.2 rfl, by simp, by simpa using h, by simp, by simp,
    by simp, by simp⟩ (by simp)

theorem valid_description (description : String) :
    Valid document (object [("description", string description)]) v :=
  valid_singleton ⟨List.forall_mem_singleton.2 rfl, by simp, by simp, by simp, by simp, by simp,
    by simp⟩ (by simp)

theorem valid_enum {choices : List JsonValue} (h : v ∈ choices) :
    Valid document (object [("enum", array choices)]) v :=
  valid_singleton ⟨List.forall_mem_singleton.2 rfl, by simp, by simp, by simpa using h, by simp,
    by simp, by simp⟩ (by simp)

theorem valid_pattern {pattern s : String} (h : IsMatch pattern s) :
    Valid document (object [("pattern", string pattern)]) (string s) :=
  valid_singleton ⟨List.forall_mem_singleton.2 rfl, by simp, by simp, by simp, by simpa using h,
    by simp, by simp⟩ (by simp)

theorem valid_minimum {minimum i : Int} (h : minimum ≤ i) :
    Valid document (object [("minimum", int minimum)]) (int i) :=
  valid_singleton ⟨List.forall_mem_singleton.2 rfl, by simp, by simp, by simp, by simp,
    by simpa using h, by simp⟩ (by simp)

theorem isKeyword_required (keys : List String) : isKeyword ("required", strings keys) = true := by
  refine List.all_eq_true.2 fun key hkey => ?_
  obtain ⟨name, -, rfl⟩ := List.mem_map.1 hkey
  rfl

theorem valid_required {keys : List String} {members : List (String × JsonValue)}
    (h : ∀ key ∈ keys, key ∈ members.map (·.1)) :
    Valid document (object [("required", strings keys)]) (object members) :=
  valid_singleton ⟨List.forall_mem_singleton.2 (isKeyword_required keys), by simp, by simp, by simp,
    by simp, by simp, by simpa [strings] using h⟩ (by simp)

/-- A keyword that demands nothing of the value as a whole. -/
theorem meets_singleton {name : String} {demand : JsonValue}
    (hknown : isKeyword (name, demand) = true)
    (hname : name ∉ ["$ref", "type", "enum", "pattern", "minimum", "required"]) :
    Meets document [(name, demand)] v := by
  have hother : ∀ {key : String} {value : JsonValue}, (key, value) ∈ [(name, demand)] →
      key ∈ ["$ref", "type", "enum", "pattern", "minimum", "required"] → False := by
    intro key value hmem hkey
    cases List.mem_singleton.1 hmem
    exact hname hkey
  exact
    { known := by simpa using hknown
      defined := fun _ hmem => (hother hmem (by simp)).elim
      type_mem := fun _ hmem => (hother hmem (by simp)).elim
      enum_mem := fun _ hmem => (hother hmem (by simp)).elim
      pattern_match := fun _ _ hmem => (hother hmem (by simp)).elim
      minimum_le := fun _ _ hmem => (hother hmem (by simp)).elim
      required_mem := fun _ _ hmem => (hother hmem (by simp)).elim }

theorem valid_items {keywords : List (String × JsonValue)} {items : List JsonValue}
    (h : ∀ item ∈ items, Valid document (object keywords) item) :
    Valid document (object [("items", object keywords)]) (array items) :=
  .intro (meets_singleton rfl (by simp)) (by simp) (by simpa using h) (by simp) (by simp) (by simp)

theorem valid_properties {properties members : List (String × JsonValue)}
    (h : ∀ key schema value, (key, schema) ∈ properties → (key, value) ∈ members →
      Valid document schema value) :
    Valid document (object [("properties", object properties)]) (object members) :=
  .intro (meets_singleton rfl (by simp)) (by simp) (by simp) (by simpa using h) (by simp) (by simp)

theorem valid_propertyNames {keywords members : List (String × JsonValue)}
    (h : ∀ key value, (key, value) ∈ members →
      Valid document (object keywords) (string key)) :
    Valid document (object [("propertyNames", object keywords)]) (object members) :=
  .intro (meets_singleton rfl (by simp)) (by simp) (by simp) (by simp) (by simpa using h) (by simp)

theorem valid_additionalProperties {keywords members : List (String × JsonValue)}
    (h : ∀ key value, (key, value) ∈ members → Valid document (object keywords) value) :
    Valid document (object [("additionalProperties", object keywords)]) (object members) :=
  .intro (meets_singleton rfl (by simp)) (by simp) (by simp) (by simp) (by simp) (by simpa using h)

/-- **A reference demands what its definition demands.** -/
theorem valid_ref {name : String} (hname : name ∈ document.definitions.map (·.1))
    (h : ∀ schema, (name, schema) ∈ document.definitions → Valid document schema v) :
    Valid document (object [("$ref", string ("#/$defs/" ++ name))]) v := by
  have hcancel : ∀ name', "#/$defs/" ++ name' = "#/$defs/" ++ name → name' = name := by
    intro name' heq
    have hlist := congrArg String.toList heq
    rw [String.toList_append, String.toList_append, List.append_cancel_left_eq] at hlist
    exact String.toList_inj.1 hlist
  refine .intro ⟨List.forall_mem_singleton.2 rfl, ?_, by simp, by simp, by simp, by simp, by simp⟩
    ?_ (by simp) (by simp) (by simp) (by simp)
  · intro target hmem
    simp only [List.mem_singleton, Prod.mk.injEq, string.injEq, true_and] at hmem
    exact ⟨name, hname, hmem⟩
  · intro name' schema hmem hschema
    simp only [List.mem_singleton, Prod.mk.injEq, string.injEq, true_and] at hmem
    cases hcancel name' hmem
    exact h schema hschema

end SmellCheck.JsonValue

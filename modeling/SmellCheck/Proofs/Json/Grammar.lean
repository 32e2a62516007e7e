import SmellCheck.Json.Value
import SmellCheck.Proofs.Text.Numeral
import Mathlib.Data.List.Forall2
/-!
# The grammar of JSON

When a text writes a JSON value (`Form`), by the rules of the format:
strings between quotes with their escapes, numbers without needless
zeros, items and members with commas between them, and blanks around
them. Of numbers only integers are covered, since the values here have no
others.

Laying a value out over several lines gives a text that writes it
(`form_indented`), whatever its strings hold.
-/

namespace SmellCheck.JsonValue

/-! ## The rules -/

/-- What may stand between the parts of a text. -/
def IsBlank (cs : List Char) : Prop :=
  ∀ c ∈ cs, c ∈ [' ', '\t', '\n', '\r']

/-- The character that a letter stands for behind a backslash. -/
def unescaped? (letter : Char) : Option Char :=
  [('"', '"'), ('\\', '\\'), ('/', '/'), ('b', '\x08'), ('f', '\x0C'), ('n', '\n'), ('r', '\r'),
    ('t', '\t')].lookup letter

/-- **How a character may stand in a string**: as it is, by a letter, or
by its number in four hexadecimal digits. -/
inductive CharForm : Char → List Char → Prop
  | plain {c : Char} (hcontrol : 0x20 ≤ c.toNat) (hquote : c ≠ '"') (hbackslash : c ≠ '\\') :
      CharForm c [c]
  | letter {c letter : Char} (h : unescaped? letter = some c) : CharForm c ['\\', letter]
  | numbered {c : Char} {digits : List Char} (hlength : digits.length = 4)
      (h : Text.nat? 16 digits = some c.toNat) : CharForm c ('\\' :: 'u' :: digits)

/-- The characters of a string, up to and with its closing quote. -/
inductive CharsForm : List Char → List Char → Prop
  | nil : CharsForm [] ['"']
  | cons {c : Char} {cs text rest : List Char} (hc : CharForm c text)
      (hcs : CharsForm cs rest) : CharsForm (c :: cs) (text ++ rest)

/-- A string between its quotes. -/
def StringForm (s : String) (cs : List Char) : Prop :=
  ∃ rest, CharsForm s.toList rest ∧ cs = '"' :: rest

/-- A number in decimal digits, the first of which is no needless zero. -/
structure DigitsForm (n : Nat) (digits : List Char) : Prop where
  value : Text.nat? 10 digits = some n
  no_zero : digits.head? = some '0' → digits = ['0']

/-- An integer. -/
inductive IntForm : Int → List Char → Prop
  | nonneg {n : Nat} {digits : List Char} (h : DigitsForm n digits) : IntForm n digits
  | neg {n : Nat} {digits : List Char} (h : DigitsForm n digits) : IntForm (-n) ('-' :: digits)

/-- One or more texts with blanks around them and commas between them. -/
inductive Separated : List (List Char) → List Char → Prop
  | one {before text after : List Char} (hbefore : IsBlank before) (hafter : IsBlank after) :
      Separated [text] (before ++ text ++ after)
  | cons {before text after rest : List Char} {texts : List (List Char)}
      (hbefore : IsBlank before) (hafter : IsBlank after) (hrest : Separated texts rest) :
      Separated (text :: texts) (before ++ text ++ after ++ ',' :: rest)

/-- Any number of texts between brackets. -/
inductive Enclosed (opening closing : Char) : List (List Char) → List Char → Prop
  | none {inside : List Char} (hinside : IsBlank inside) :
      Enclosed opening closing [] (opening :: inside ++ [closing])
  | some {texts : List (List Char)} {inside : List Char} (hinside : Separated texts inside) :
      Enclosed opening closing texts (opening :: inside ++ [closing])

mutual

/-- **The text writes the value.** -/
inductive Form : JsonValue → List Char → Prop
  | null : Form .null ['n', 'u', 'l', 'l']
  | true : Form (.bool true) ['t', 'r', 'u', 'e']
  | false : Form (.bool false) ['f', 'a', 'l', 's', 'e']
  | int {i : Int} {cs : List Char} (h : IntForm i cs) : Form (.int i) cs
  | string {s : String} {cs : List Char} (h : StringForm s cs) : Form (.string s) cs
  | array {items : List JsonValue} {texts : List (List Char)} {cs : List Char}
      (hitems : List.Forall₂ Form items texts) (hcs : Enclosed '[' ']' texts cs) :
      Form (.array items) cs
  | object {members : List (String × JsonValue)} {texts : List (List Char)} {cs : List Char}
      (hmembers : List.Forall₂ MemberForm members texts)
      (hcs : Enclosed '\x7b' '\x7d' texts cs) : Form (.object members) cs

/-- The text writes the member: its key, a colon, and its value. -/
inductive MemberForm : String × JsonValue → List Char → Prop
  | mk {key : String} {value : JsonValue} {keyText before after text : List Char}
      (hkey : StringForm key keyText) (hbefore : IsBlank before) (hafter : IsBlank after)
      (hvalue : Form value text) :
      MemberForm (key, value) (keyText ++ before ++ ':' :: after ++ text)

end

/-- **The text is a JSON text** of the value, with blanks around it. -/
def IsText (v : JsonValue) (text : String) : Prop :=
  ∃ before cs after, IsBlank before ∧ Form v cs ∧ IsBlank after ∧
    text.toList = before ++ cs ++ after

/-! ## Blanks -/

theorem isBlank_nil : IsBlank [] := fun _ h => absurd h List.not_mem_nil

theorem IsBlank.append {u v : List Char} (hu : IsBlank u) (hv : IsBlank v) : IsBlank (u ++ v) :=
  fun c hc => (List.mem_append.1 hc).elim (hu c) (hv c)

/-- Blanks around a text may be left out. -/
theorem Form.isText {v : JsonValue} {text : String} (h : Form v text.toList) : IsText v text :=
  ⟨[], _, [], isBlank_nil, h, isBlank_nil, by rw [List.nil_append, List.append_nil]⟩

/-- The indent of what is inside. -/
theorem isBlank_deeper {indent : String} (h : IsBlank indent.toList) :
    IsBlank (indent ++ "  ").toList := by
  rw [String.toList_append]
  exact h.append (Text.forall_mem_of_all (by decide))

/-! ## Strings and numbers -/

/-- The letter of an escape stands for its character. -/
theorem unescaped?_of_escapeLetter? {c letter : Char} (h : escapeLetter? c = some letter) :
    unescaped? letter = some c := by
  have hchar : ∀ d : Char, c.toNat = d.toNat → c = d := fun d => Char.toNat_inj.1
  unfold escapeLetter? at h
  split at h
  · rename_i hc
    cases h
    rw [hchar '\x08' hc]
    rfl
  · rename_i hc
    cases h
    rw [hchar '\t' hc]
    rfl
  · rename_i hc
    cases h
    rw [hchar '\n' hc]
    rfl
  · rename_i hc
    cases h
    rw [hchar '\x0C' hc]
    rfl
  · rename_i hc
    cases h
    rw [hchar '\r' hc]
    rfl
  · rename_i hc
    cases h
    rw [hchar '"' hc]
    rfl
  · rename_i hc
    cases h
    rw [hchar '\\' hc]
    rfl
  · cases h

/-- A character that is written by its number has four digits. -/
theorem toNat_lt_of_isNumbered {c : Char} (h : isNumbered c = true) : c.toNat < 65536 := by
  simp only [isNumbered, Bool.or_eq_true, decide_eq_true_eq, List.contains_iff_mem,
    List.mem_cons, List.not_mem_nil, or_false, beq_iff_eq] at h
  rcases h with ((h | rfl | rfl | rfl) | h) | h
  · omega
  · decide
  · decide
  · decide
  · omega
  · omega

/-- **A character is written as the format asks.** -/
theorem charForm_charText (c : Char) : CharForm c (charText c) := by
  rw [charText]
  cases hletter : escapeLetter? c with
  | some letter => exact .letter (unescaped?_of_escapeLetter? hletter)
  | none =>
    simp only
    split
    · rename_i hnumbered
      exact .numbered (Text.length_padZeros (by omega) (toNat_lt_of_isNumbered hnumbered))
        (Text.nat?_padZeros 4 c.toNat)
    · rename_i hplain
      refine .plain ?_ ?_ ?_
      · simp only [isNumbered, Bool.or_eq_true, decide_eq_true_eq, not_or] at hplain
        omega
      · rintro rfl
        cases hletter
      · rintro rfl
        cases hletter

theorem charsForm_flatMap (cs : List Char) : CharsForm cs (cs.flatMap charText ++ ['"']) := by
  induction cs with
  | nil => exact .nil
  | cons c cs ih =>
    rw [List.flatMap_cons, List.append_assoc]
    exact .cons (charForm_charText c) ih

/-- **A quoted string writes the string.** -/
theorem stringForm_stringText (s : String) : StringForm s (stringText s).toList := by
  refine ⟨s.toList.flatMap charText ++ ['"'], charsForm_flatMap s.toList, ?_⟩
  rw [stringText, String.toList_ofList, List.cons_append]

theorem digitsForm_toDigits (n : Nat) : DigitsForm n (Nat.toDigits 10 n) where
  value := by
    have hne : ¬ (Nat.toDigits 10 n).isEmpty = true := by simp [Nat.toDigits_ne_nil]
    rw [Text.nat?, if_neg hne, Text.digitsFrom?_toDigits (by omega) (by omega)]
  no_zero := by
    intro hzero
    by_cases hn : n = 0
    · rw [hn]
      rfl
    · exact absurd hzero (Text.head?_toDigits_ne (by omega) (by omega) hn)

theorem intForm_decimal (i : Int) : IntForm i (Text.decimal i).toList := by
  rw [Text.toList_decimal]
  have hdigits := digitsForm_toDigits i.natAbs
  split
  · rename_i hneg
    have hform := IntForm.neg hdigits
    rwa [show -(i.natAbs : Int) = i by omega] at hform
  · have hform := IntForm.nonneg hdigits
    rwa [show (i.natAbs : Int) = i by omega] at hform

/-! ## Layouts -/

/-- Texts on lines of their own are separated. -/
theorem separated_lines {texts : List (List Char)} {indent after : List Char}
    (hindent : IsBlank indent) (hafter : IsBlank after) (hne : texts ≠ []) :
    Separated texts ('\n' :: [',', '\n'].intercalate (texts.map (indent ++ ·)) ++ after) := by
  have hbefore : IsBlank ('\n' :: indent) :=
    List.forall_mem_cons.2 ⟨by simp, hindent⟩
  induction texts with
  | nil => exact absurd rfl hne
  | cons text texts ih =>
    cases texts with
    | nil =>
      rw [List.map_singleton, List.intercalate_singleton, ← List.cons_append]
      exact .one hbefore hafter
    | cons next texts =>
      -- the line break behind the comma is a blank before the next text
      have hform : Separated (text :: next :: texts) _ :=
        .cons hbefore isBlank_nil (ih (List.cons_ne_nil next texts))
      rw [List.map_cons, List.map_cons, List.intercalate_cons_cons]
      simpa using hform

/-- **Texts on lines of their own between brackets are enclosed.** -/
theorem enclosed_bracketed {opening closing indent : String} {o c : Char}
    (hopening : opening.toList = [o]) (hclosing : closing.toList = [c])
    (hindent : IsBlank indent.toList) (texts : List String) :
    Enclosed o c (texts.map (·.toList)) (bracketed opening closing indent texts).toList := by
  rw [bracketed]
  split
  · rename_i hempty
    rw [List.isEmpty_iff.1 hempty, String.toList_append, hopening, hclosing]
    exact .none isBlank_nil
  · rename_i hsome
    have hne : texts.map (·.toList) ≠ [] := by
      rw [Ne, List.map_eq_nil_iff]
      exact fun hnil => hsome (List.isEmpty_iff.2 hnil)
    have hblanks : IsBlank (indent ++ "  ").toList := isBlank_deeper hindent
    have hend : IsBlank ('\n' :: indent.toList) := List.forall_mem_cons.2 ⟨by simp, hindent⟩
    have hform : Enclosed o c _ _ := .some (separated_lines hblanks hend hne)
    simpa [hopening, hclosing, String.toList_append, String.toList_intercalate, List.map_map,
      Function.comp_def] using hform

/-- A key and what it stands for. -/
theorem memberForm {key : String} {value : JsonValue} {text : String}
    (h : Form value text.toList) :
    MemberForm (key, value) (stringText key ++ ": " ++ text).toList := by
  have hform := MemberForm.mk (stringForm_stringText key) isBlank_nil
    (show IsBlank [' '] from Text.forall_mem_of_all (by decide)) h
  simpa [String.toList_append] using hform

/-- **A value that is no collection** is written on one line. -/
theorem form_atomText {v : JsonValue} (harray : ∀ items, v ≠ .array items)
    (hobject : ∀ members, v ≠ .object members) : Form v v.atomText.toList := by
  cases v with
  | null => exact .null
  | bool b => cases b with
    | true => exact .true
    | false => exact .false
  | int i => exact .int (intForm_decimal i)
  | string s => exact .string (stringForm_stringText s)
  | array items => exact absurd rfl (harray items)
  | object members => exact absurd rfl (hobject members)

mutual

/-- **Laying a value out over several lines writes it.** -/
theorem form_indented {indent : String} (hindent : IsBlank indent.toList) (v : JsonValue) :
    Form v (v.indented indent).toList := by
  have hdeeper := isBlank_deeper hindent
  cases v with
  | array items =>
    rw [indented]
    exact .array (forall₂_indentedItems hdeeper items) (enclosed_bracketed rfl rfl hindent _)
  | object members =>
    rw [indented]
    exact .object (forall₂_indentedMembers hdeeper members) (enclosed_bracketed rfl rfl hindent _)
  | _ =>
    rw [indented]
    · exact form_atomText (by simp) (by simp)
    · simp
    · simp

theorem forall₂_indentedItems {indent : String} (hindent : IsBlank indent.toList)
    (items : List JsonValue) :
    List.Forall₂ Form items ((indentedItems indent items).map (·.toList)) := by
  cases items with
  | nil => exact .nil
  | cons item items =>
    exact .cons (form_indented hindent item) (forall₂_indentedItems hindent items)

theorem forall₂_indentedMembers {indent : String} (hindent : IsBlank indent.toList)
    (members : List (String × JsonValue)) :
    List.Forall₂ MemberForm members ((indentedMembers indent members).map (·.toList)) := by
  cases members with
  | nil => exact .nil
  | cons member members =>
    obtain ⟨key, value⟩ := member
    exact .cons (memberForm (form_indented hindent value)) (forall₂_indentedMembers hindent members)

end

end SmellCheck.JsonValue

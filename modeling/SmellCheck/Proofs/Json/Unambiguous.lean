import SmellCheck.Proofs.Json.Grammar
/-!
# JSON texts are unambiguous

A text writes one value at most (`IsText.unique`). The grammar gives many
texts for one value, so this is what lets one speak of the value of a
text.

What is proved of a value is that its texts can be told from what follows
them (`Unambiguous`): if a text of the value and a text of another one
begin the same longer text, then the values are equal, and so is what is
left over. Only for a number does it matter what follows, which must not
go on with a digit (`Ends`).
-/

namespace SmellCheck.JsonValue

/-! ## Cutting a text in two -/

/-- **A text is cut in one way** into characters of one sort and a rest
that does not begin with this sort. -/
theorem cut_unique {p : Char → Prop} {u u' v v' : List Char} (hu : ∀ c ∈ u, p c)
    (hu' : ∀ c ∈ u', p c) (hv : ∀ c ∈ v.head?, ¬ p c) (hv' : ∀ c ∈ v'.head?, ¬ p c)
    (h : u ++ v = u' ++ v') : u = u' ∧ v = v' := by
  induction u generalizing u' with
  | nil =>
    cases u' with
    | nil => exact ⟨rfl, h⟩
    | cons c u' =>
      obtain rfl : v = c :: (u' ++ v') := h
      exact absurd (hu' c List.mem_cons_self) (hv c rfl)
  | cons c u ih =>
    cases u' with
    | nil =>
      obtain rfl : c :: (u ++ v) = v' := h
      exact absurd (hu c List.mem_cons_self) (hv' c rfl)
    | cons c' u' =>
      obtain ⟨rfl, hrest⟩ := List.cons.inj h
      obtain ⟨rfl, hv⟩ := ih (List.forall_mem_of_forall_mem_cons hu)
        (List.forall_mem_of_forall_mem_cons hu') hrest
      exact ⟨rfl, hv⟩

/-- What follows a number does not go on with a digit. -/
def Ends (rest : List Char) : Prop :=
  ∀ c ∈ rest.head?, ¬ (Text.digitIn? 10 c).isSome = true

/-- **The texts of `a` can be told from what follows them.** -/
def Unambiguous {α : Type} (R : α → List Char → Prop) (a : α) : Prop :=
  ∀ ⦃b : α⦄ ⦃text text' rest rest' : List Char⦄, R a text → R b text' → Ends rest → Ends rest' →
    text ++ rest = text' ++ rest' → a = b ∧ rest = rest'

/-! ## Numbers -/

theorem DigitsForm.isSome_digit {n : Nat} {digits : List Char} (h : DigitsForm n digits) :
    ∀ c ∈ digits, (Text.digitIn? 10 c).isSome = true := by
  have hvalue := h.value
  rw [Text.nat?] at hvalue
  split at hvalue
  · cases hvalue
  · exact Text.isSome_of_digitsFrom? hvalue

theorem DigitsForm.exists_cons {n : Nat} {digits : List Char} (h : DigitsForm n digits) :
    ∃ c rest, digits = c :: rest ∧ (Text.digitIn? 10 c).isSome = true := by
  cases digits with
  | nil => cases h.value
  | cons c rest => exact ⟨c, rest, rfl, h.isSome_digit c List.mem_cons_self⟩

theorem DigitsForm.unambiguous {n n' : Nat} {digits digits' rest rest' : List Char}
    (h : DigitsForm n digits) (h' : DigitsForm n' digits') (hrest : Ends rest)
    (hrest' : Ends rest') (heq : digits ++ rest = digits' ++ rest') : n = n' ∧ rest = rest' := by
  obtain ⟨rfl, hrest⟩ := cut_unique h.isSome_digit h'.isSome_digit hrest hrest' heq
  exact ⟨Option.some.inj (h.value.symm.trans h'.value), hrest⟩

/-- A sign is no digit. -/
theorem DigitsForm.append_ne {n : Nat} {digits rest rest' : List Char}
    (h : DigitsForm n digits) : digits ++ rest ≠ '-' :: rest' := by
  obtain ⟨c, tail, rfl, hc⟩ := h.exists_cons
  intro heq
  obtain ⟨rfl, -⟩ := List.cons.inj heq
  exact absurd hc (by decide)

theorem unambiguous_int (i : Int) : Unambiguous IntForm i := by
  intro j text text' rest rest' hi hj hrest hrest' h
  cases hi with
  | nonneg hi =>
    cases hj with
    | nonneg hj =>
      obtain ⟨rfl, h⟩ := hi.unambiguous hj hrest hrest' h
      exact ⟨rfl, h⟩
    | neg hj => exact absurd h hi.append_ne
  | neg hi =>
    cases hj with
    | nonneg hj => exact absurd h.symm hj.append_ne
    | neg hj =>
      obtain ⟨rfl, h⟩ := hi.unambiguous hj hrest hrest' (List.cons.inj h).2
      exact ⟨rfl, h⟩

/-! ## Strings -/

/-- **A character can be told from what follows it**: a backslash says how
many more characters belong to it. -/
theorem CharForm.unambiguous {c c' : Char} {text text' rest rest' : List Char}
    (h : CharForm c text) (h' : CharForm c' text') (heq : text ++ rest = text' ++ rest') :
    c = c' ∧ rest = rest' := by
  cases h with
  | plain _ _ hbackslash =>
    cases h' with
    | plain => exact List.cons.inj heq
    | letter => exact absurd (List.cons.inj heq).1 hbackslash
    | numbered => exact absurd (List.cons.inj heq).1 hbackslash
  | letter h =>
    cases h' with
    | plain _ _ hbackslash => exact absurd (List.cons.inj heq).1.symm hbackslash
    | letter h' =>
      obtain ⟨-, htail⟩ := List.cons.inj heq
      obtain ⟨rfl, hrest⟩ := List.cons.inj htail
      exact ⟨Option.some.inj (h.symm.trans h'), hrest⟩
    | numbered =>
      obtain ⟨-, htail⟩ := List.cons.inj heq
      obtain ⟨rfl, -⟩ := List.cons.inj htail
      cases h
  | numbered hlength h =>
    cases h' with
    | plain _ _ hbackslash => exact absurd (List.cons.inj heq).1.symm hbackslash
    | letter h' =>
      obtain ⟨-, htail⟩ := List.cons.inj heq
      obtain ⟨rfl, -⟩ := List.cons.inj htail
      cases h'
    | numbered hlength' h' =>
      obtain ⟨-, htail⟩ := List.cons.inj heq
      obtain ⟨-, htail⟩ := List.cons.inj htail
      obtain ⟨rfl, hrest⟩ := List.append_inj htail (hlength.trans hlength'.symm)
      exact ⟨Char.toNat_inj.1 (Option.some.inj (h.symm.trans h')), hrest⟩

/-- The closing quote is no character of the string. -/
theorem CharForm.append_ne {c : Char} {text rest rest' : List Char} (h : CharForm c text) :
    text ++ rest ≠ '"' :: rest' := by
  intro heq
  cases h with
  | plain _ hquote => exact hquote (List.cons.inj heq).1
  | letter => cases (List.cons.inj heq).1
  | numbered => cases (List.cons.inj heq).1

theorem CharsForm.unambiguous {cs cs' text text' rest rest' : List Char} (h : CharsForm cs text)
    (h' : CharsForm cs' text') (heq : text ++ rest = text' ++ rest') : cs = cs' ∧ rest = rest' := by
  induction h generalizing cs' text' with
  | nil =>
    cases h' with
    | nil => exact ⟨rfl, (List.cons.inj heq).2⟩
    | cons hc =>
      rw [List.append_assoc] at heq
      exact absurd heq.symm hc.append_ne
  | cons hc hcs ih =>
    rw [List.append_assoc] at heq
    cases h' with
    | nil => exact absurd heq hc.append_ne
    | cons hc' hcs' =>
      rw [List.append_assoc] at heq
      obtain ⟨rfl, heq⟩ := hc.unambiguous hc' heq
      obtain ⟨rfl, heq⟩ := ih hcs' heq
      exact ⟨rfl, heq⟩

theorem StringForm.unambiguous {s s' : String} {text text' rest rest' : List Char}
    (h : StringForm s text) (h' : StringForm s' text') (heq : text ++ rest = text' ++ rest') :
    s = s' ∧ rest = rest' := by
  obtain ⟨chars, hchars, rfl⟩ := h
  obtain ⟨chars', hchars', rfl⟩ := h'
  obtain ⟨hs, heq⟩ := hchars.unambiguous hchars' (List.cons.inj heq).2
  exact ⟨String.toList_inj.1 hs, heq⟩

/-! ## The first character -/

/-- The kinds of values. -/
inductive Kind where
  | null
  | bool
  | int
  | string
  | array
  | object

/-- The kind of a value. -/
def kind : JsonValue → Kind
  | .null => .null
  | .bool _ => .bool
  | .int _ => .int
  | .string _ => .string
  | .array _ => .array
  | .object _ => .object

/-- The kind of the values whose texts begin with the character. -/
def kind? (c : Char) : Option Kind :=
  if (Text.digitIn? 10 c).isSome then some .int
  else [('n', Kind.null), ('t', .bool), ('f', .bool), ('-', .int), ('"', .string), ('[', .array),
    ('\x7b', .object)].lookup c

/-- The text begins as the text of some value does. -/
def Begins (text : List Char) : Prop :=
  ∃ c rest, text = c :: rest ∧ (kind? c).isSome = true

theorem StringForm.exists_cons {s : String} {text : List Char} (h : StringForm s text) :
    ∃ rest, text = '"' :: rest :=
  h.elim fun rest h => ⟨rest, h.2⟩

theorem Enclosed.exists_cons {opening closing : Char} {texts : List (List Char)}
    {cs : List Char} (h : Enclosed opening closing texts cs) : ∃ rest, cs = opening :: rest := by
  cases h with
  | none => exact ⟨_, rfl⟩
  | some => exact ⟨_, rfl⟩

/-- **The first character tells the kind.** -/
theorem Form.exists_cons {v : JsonValue} {text : List Char} (h : Form v text) :
    ∃ c rest, text = c :: rest ∧ kind? c = some v.kind := by
  cases h with
  | null => exact ⟨_, _, rfl, rfl⟩
  | true => exact ⟨_, _, rfl, rfl⟩
  | false => exact ⟨_, _, rfl, rfl⟩
  | int h =>
    cases h with
    | nonneg h =>
      obtain ⟨c, rest, rfl, hc⟩ := h.exists_cons
      exact ⟨c, rest, rfl, if_pos hc⟩
    | neg => exact ⟨_, _, rfl, rfl⟩
  | string h =>
    obtain ⟨rest, rfl⟩ := h.exists_cons
    exact ⟨_, _, rfl, rfl⟩
  | array _ h =>
    obtain ⟨rest, rfl⟩ := h.exists_cons
    exact ⟨_, _, rfl, rfl⟩
  | object _ h =>
    obtain ⟨rest, rfl⟩ := h.exists_cons
    exact ⟨_, _, rfl, rfl⟩

theorem Form.kind_eq {v w : JsonValue} {text text' rest rest' : List Char} (hv : Form v text)
    (hw : Form w text') (h : text ++ rest = text' ++ rest') : v.kind = w.kind := by
  obtain ⟨c, tail, rfl, hc⟩ := hv.exists_cons
  obtain ⟨c', tail', rfl, hc'⟩ := hw.exists_cons
  obtain ⟨rfl, -⟩ := List.cons.inj h
  exact Option.some.inj (hc.symm.trans hc')

theorem Form.begins {v : JsonValue} {text : List Char} (h : Form v text) : Begins text := by
  obtain ⟨c, rest, rfl, hc⟩ := h.exists_cons
  exact ⟨c, rest, rfl, Option.isSome_of_eq_some hc⟩

theorem MemberForm.begins {member : String × JsonValue} {text : List Char}
    (h : MemberForm member text) : Begins text := by
  cases h with
  | mk hkey =>
    obtain ⟨rest, rfl⟩ := hkey.exists_cons
    exact ⟨_, _, rfl, rfl⟩

/-! ## Blanks -/

/-- A character that is no blank stands first. -/
def Solid (text : List Char) : Prop :=
  ∀ c ∈ text.head?, ¬ c ∈ [' ', '\t', '\n', '\r']

theorem Begins.solid {text : List Char} (h : Begins text) (rest : List Char) :
    Solid (text ++ rest) := by
  obtain ⟨c, tail, rfl, hc⟩ := h
  rintro d ⟨⟩ hblank
  simp only [List.mem_cons, List.not_mem_nil, or_false] at hblank
  rcases hblank with rfl | rfl | rfl | rfl <;> exact absurd hc (by decide)

/-- What may come behind an item. -/
def IsMark (c : Char) : Prop :=
  c ∈ [',', ':', ']', '\x7d']

theorem IsMark.solid {c : Char} (h : IsMark c) (rest : List Char) : Solid (c :: rest) := by
  rintro d ⟨⟩ hblank
  simp only [IsMark, List.mem_cons, List.not_mem_nil, or_false] at h
  rcases h with rfl | rfl | rfl | rfl <;> simp at hblank

/-- A value does not begin with a mark. -/
theorem Begins.append_ne {text rest rest' : List Char} {c : Char} (h : Begins text)
    (hc : IsMark c) : text ++ rest ≠ c :: rest' := by
  obtain ⟨d, tail, rfl, hd⟩ := h
  intro heq
  obtain ⟨rfl, -⟩ := List.cons.inj heq
  simp only [IsMark, List.mem_cons, List.not_mem_nil, or_false] at hc
  rcases hc with rfl | rfl | rfl | rfl <;> exact absurd hd (by decide)

theorem IsMark.ends {c : Char} (h : IsMark c) (rest : List Char) : Ends (c :: rest) := by
  rintro d ⟨⟩
  simp only [IsMark, List.mem_cons, List.not_mem_nil, or_false] at h
  rcases h with rfl | rfl | rfl | rfl <;> decide

/-- No number goes on with a blank. -/
theorem IsBlank.ends {blanks rest : List Char} (h : IsBlank blanks) (hrest : Ends rest) :
    Ends (blanks ++ rest) := by
  cases blanks with
  | nil => exact hrest
  | cons c blanks =>
    rintro d ⟨⟩
    have hc := h c List.mem_cons_self
    simp only [List.mem_cons, List.not_mem_nil, or_false] at hc
    rcases hc with rfl | rfl | rfl | rfl <;> decide

/-! ## Collections -/

/-- There is a first item. -/
theorem Separated.exists_first {texts : List (List Char)} {inside : List Char}
    (h : Separated texts inside) : ∃ before text tail more, texts = text :: more ∧
      IsBlank before ∧ inside = before ++ (text ++ tail) := by
  cases h with
  | one hbefore => exact ⟨_, _, _, _, rfl, hbefore, List.append_assoc ..⟩
  | @cons before text after rest _ hbefore =>
    refine ⟨before, text, after ++ ',' :: rest, _, rfl, hbefore, ?_⟩
    rw [List.append_assoc, List.append_assoc]

section Collections

variable {α : Type} {R : α → List Char → Prop}
variable (hbegins : ∀ ⦃a : α⦄ ⦃text : List Char⦄, R a text → Begins text)

include hbegins

/-- **An item with the blanks around it can be told from the mark behind
them.** -/
theorem item_unique {a b : α} (ha : Unambiguous R a)
    {before text after rest before' text' after' rest' : List Char} {c c' : Char}
    (h : R a text) (h' : R b text') (hbefore : IsBlank before) (hbefore' : IsBlank before')
    (hafter : IsBlank after) (hafter' : IsBlank after') (hc : IsMark c) (hc' : IsMark c')
    (heq : before ++ (text ++ (after ++ c :: rest)) =
      before' ++ (text' ++ (after' ++ c' :: rest'))) :
    a = b ∧ c = c' ∧ rest = rest' := by
  obtain ⟨-, heq⟩ := cut_unique hbefore hbefore' ((hbegins h).solid _) ((hbegins h').solid _) heq
  obtain ⟨rfl, heq⟩ := ha h h' (hafter.ends (hc.ends _)) (hafter'.ends (hc'.ends _)) heq
  obtain ⟨-, heq⟩ := cut_unique hafter hafter' (hc.solid _) (hc'.solid _) heq
  exact ⟨rfl, List.cons.inj heq⟩

/-- **Items between commas can be told from the bracket behind them.** -/
theorem Separated.unambiguous {closing : Char} (hclosing : IsMark closing) (hcomma : ',' ≠ closing)
    {texts texts' : List (List Char)} {inside inside' rest rest' : List Char}
    (h : Separated texts inside) (h' : Separated texts' inside') {items items' : List α}
    (hitems : List.Forall₂ R items texts) (hitems' : List.Forall₂ R items' texts')
    (hall : ∀ a ∈ items, Unambiguous R a)
    (heq : inside ++ closing :: rest = inside' ++ closing :: rest') :
    items = items' ∧ rest = rest' := by
  have hmark : IsMark ',' := List.mem_cons_self
  -- the item in front is the same on both sides, and the mark behind it
  -- says on both sides alike whether there are more
  induction h generalizing texts' inside' items items' with
  | one hbefore hafter =>
    obtain ⟨a, _, ha, ⟨⟩, rfl⟩ := List.forall₂_cons_right_iff.1 hitems
    have hone := hall a List.mem_cons_self
    cases h' with
    | one hbefore' hafter' =>
      obtain ⟨b, _, hb, ⟨⟩, rfl⟩ := List.forall₂_cons_right_iff.1 hitems'
      simp only [List.append_assoc] at heq
      obtain ⟨rfl, -, hrest⟩ := item_unique hbegins hone ha hb hbefore hbefore' hafter
        hafter' hclosing hclosing heq
      exact ⟨rfl, hrest⟩
    | cons hbefore' hafter' =>
      obtain ⟨b, _, hb, -, rfl⟩ := List.forall₂_cons_right_iff.1 hitems'
      simp only [List.append_assoc, List.cons_append] at heq
      obtain ⟨-, hmarks, -⟩ := item_unique hbegins hone ha hb hbefore hbefore' hafter
        hafter' hclosing hmark heq
      exact absurd hmarks.symm hcomma
  | cons hbefore hafter _ ih =>
    obtain ⟨a, items, ha, hmore, rfl⟩ := List.forall₂_cons_right_iff.1 hitems
    have hone := hall a List.mem_cons_self
    cases h' with
    | one hbefore' hafter' =>
      obtain ⟨b, _, hb, ⟨⟩, rfl⟩ := List.forall₂_cons_right_iff.1 hitems'
      simp only [List.append_assoc, List.cons_append] at heq
      obtain ⟨-, hmarks, -⟩ := item_unique hbegins hone ha hb hbefore hbefore' hafter
        hafter' hmark hclosing heq
      exact absurd hmarks hcomma
    | cons hbefore' hafter' hseparated' =>
      obtain ⟨b, items', hb, hmore', rfl⟩ := List.forall₂_cons_right_iff.1 hitems'
      simp only [List.append_assoc, List.cons_append] at heq
      obtain ⟨rfl, -, hafter⟩ := item_unique hbegins hone ha hb hbefore hbefore' hafter
        hafter' hmark hmark heq
      obtain ⟨rfl, hrest⟩ := ih hseparated' hmore hmore'
        (List.forall_mem_of_forall_mem_cons hall) hafter
      exact ⟨rfl, hrest⟩

/-- Blanks alone hold no items. -/
theorem Separated.append_ne {closing : Char} (hclosing : IsMark closing)
    {texts : List (List Char)} {inside blanks rest rest' : List Char} (h : Separated texts inside)
    {items : List α} (hitems : List.Forall₂ R items texts) (hblanks : IsBlank blanks) :
    inside ++ closing :: rest ≠ blanks ++ closing :: rest' := by
  obtain ⟨before, text, tail, texts, rfl, hbefore, rfl⟩ := h.exists_first
  obtain ⟨a, _, ha, -, rfl⟩ := List.forall₂_cons_right_iff.1 hitems
  intro heq
  rw [List.append_assoc, List.append_assoc] at heq
  obtain ⟨-, heq⟩ := cut_unique hbefore hblanks ((hbegins ha).solid _) (hclosing.solid _) heq
  exact (hbegins ha).append_ne hclosing heq

/-- **Items between brackets can be told from what follows them.** -/
theorem Enclosed.unambiguous {opening closing : Char} (hclosing : IsMark closing)
    (hcomma : ',' ≠ closing)
    {texts texts' : List (List Char)} {cs cs' rest rest' : List Char}
    (h : Enclosed opening closing texts cs) (h' : Enclosed opening closing texts' cs')
    {items items' : List α} (hitems : List.Forall₂ R items texts)
    (hitems' : List.Forall₂ R items' texts') (hall : ∀ a ∈ items, Unambiguous R a)
    (heq : cs ++ rest = cs' ++ rest') : items = items' ∧ rest = rest' := by
  cases h with
  | none hblanks =>
    cases hitems
    cases h' with
    | none hblanks' =>
      cases hitems'
      simp only [List.append_assoc, List.cons_append, List.nil_append] at heq
      obtain ⟨-, heq⟩ := cut_unique hblanks hblanks' (hclosing.solid _) (hclosing.solid _)
        (List.cons.inj heq).2
      exact ⟨rfl, (List.cons.inj heq).2⟩
    | some hinside' =>
      simp only [List.append_assoc, List.cons_append, List.nil_append] at heq
      exact absurd (List.cons.inj heq).2.symm
        (hinside'.append_ne hbegins hclosing hitems' hblanks)
  | some hinside =>
    cases h' with
    | none hblanks' =>
      simp only [List.append_assoc, List.cons_append, List.nil_append] at heq
      exact absurd (List.cons.inj heq).2 (hinside.append_ne hbegins hclosing hitems hblanks')
    | some hinside' =>
      simp only [List.append_assoc, List.cons_append, List.nil_append] at heq
      exact hinside.unambiguous hbegins hclosing hcomma hinside' hitems hitems' hall
        (List.cons.inj heq).2

end Collections

/-! ## Values -/

/-- A member is as unambiguous as its value. -/
theorem Unambiguous.member {key : String} {value : JsonValue} (h : Unambiguous Form value) :
    Unambiguous MemberForm (key, value) := by
  have hcolon : IsMark ':' := List.mem_cons_of_mem _ List.mem_cons_self
  intro member text text' rest rest' hm hm' hrest hrest' heq
  cases hm with
  | mk hkey hbefore hafter hvalue =>
    cases hm' with
    | mk hkey' hbefore' hafter' hvalue' =>
      simp only [List.append_assoc, List.cons_append] at heq
      obtain ⟨rfl, heq⟩ := hkey.unambiguous hkey' heq
      obtain ⟨-, heq⟩ := cut_unique hbefore hbefore' (hcolon.solid _) (hcolon.solid _) heq
      obtain ⟨-, heq⟩ := cut_unique hafter hafter' (hvalue.begins.solid _)
        (hvalue'.begins.solid _) (List.cons.inj heq).2
      obtain ⟨rfl, heq⟩ := h hvalue hvalue' hrest hrest' heq
      exact ⟨rfl, heq⟩

mutual

/-- **The texts of a value can be told from what follows them.** -/
theorem unambiguous_form (v : JsonValue) : Unambiguous Form v := by
  intro w text text' rest rest' hv hw hrest hrest' h
  have hkind := hv.kind_eq hw h
  cases hv with
  | null =>
    cases hw with
    | null => exact ⟨rfl, List.append_cancel_left h⟩
    | _ => cases hkind
  | true =>
    cases hw with
    | true => exact ⟨rfl, List.append_cancel_left h⟩
    | false => cases (List.cons.inj h).1
    | _ => cases hkind
  | false =>
    cases hw with
    | true => cases (List.cons.inj h).1
    | false => exact ⟨rfl, List.append_cancel_left h⟩
    | _ => cases hkind
  | int hi =>
    cases hw with
    | int hj =>
      obtain ⟨rfl, h⟩ := unambiguous_int _ hi hj hrest hrest' h
      exact ⟨rfl, h⟩
    | _ => cases hkind
  | string hs =>
    cases hw with
    | string hs' =>
      obtain ⟨rfl, h⟩ := hs.unambiguous hs' h
      exact ⟨rfl, h⟩
    | _ => cases hkind
  | @array items _ _ hitems hcs =>
    cases hw with
    | array hitems' hcs' =>
      obtain ⟨rfl, h⟩ := hcs.unambiguous (fun _ _ => Form.begins) (by simp [IsMark]) (by decide)
        hcs' hitems hitems' (unambiguous_items items) h
      exact ⟨rfl, h⟩
    | _ => cases hkind
  | @object members _ _ hmembers hcs =>
    cases hw with
    | object hmembers' hcs' =>
      obtain ⟨rfl, h⟩ := hcs.unambiguous (fun _ _ => MemberForm.begins) (by simp [IsMark])
        (by decide) hcs' hmembers hmembers' (unambiguous_members members) h
      exact ⟨rfl, h⟩
    | _ => cases hkind

theorem unambiguous_items (items : List JsonValue) : ∀ v ∈ items, Unambiguous Form v := by
  cases items with
  | nil => exact List.forall_mem_nil _
  | cons v items => exact List.forall_mem_cons.2 ⟨unambiguous_form v, unambiguous_items items⟩

theorem unambiguous_members (members : List (String × JsonValue)) :
    ∀ member ∈ members, Unambiguous MemberForm member := by
  cases members with
  | nil => exact List.forall_mem_nil _
  | cons member members =>
    obtain ⟨key, value⟩ := member
    exact List.forall_mem_cons.2 ⟨(unambiguous_form value).member, unambiguous_members members⟩

end

/-- **A JSON text writes one value.** -/
theorem IsText.unique {v w : JsonValue} {text : String} (hv : IsText v text)
    (hw : IsText w text) : v = w := by
  obtain ⟨before, cs, after, hbefore, hcs, hafter, htext⟩ := hv
  obtain ⟨before', cs', after', hbefore', hcs', hafter', htext'⟩ := hw
  have h := htext.symm.trans htext'
  rw [List.append_assoc, List.append_assoc] at h
  obtain ⟨-, h⟩ := cut_unique hbefore hbefore' (hcs.begins.solid _) (hcs'.begins.solid _) h
  have hnil : Ends [] := fun c hc => by cases hc
  have hends := hafter.ends hnil
  have hends' := hafter'.ends hnil
  rw [List.append_nil] at hends hends'
  exact (unambiguous_form v hcs hcs' hends hends' h).1

end SmellCheck.JsonValue

import Mathlib.Data.List.Forall2
/-!
# Computations that may fail

What a computation gave, once it is known that it did not fail: every
part of it gave a result, and these results make up the whole.
-/

namespace SmellCheck

variable {ε ε' α β : Type}

/-- A sequence of two gives a result if both do. -/
theorem bind_eq_ok {x : Except ε α} {f : α → Except ε β} {b : β} :
    x >>= f = .ok b ↔ ∃ a, x = .ok a ∧ f a = .ok b := by
  cases x with
  | error e => simp [bind, Except.bind]
  | ok a => simp [bind, Except.bind]

theorem map_eq_ok {x : Except ε α} {f : α → β} {b : β} :
    x.map f = .ok b ↔ ∃ a, x = .ok a ∧ f a = b := by
  cases x with
  | error e => simp [Except.map]
  | ok a => simp [Except.map]

theorem mapError_eq_ok {x : Except ε α} {f : ε → ε'} {a : α} :
    x.mapError f = .ok a ↔ x = .ok a := by
  cases x with
  | error e => simp [Except.mapError]
  | ok b => simp [Except.mapError]

theorem toOption_eq_some {x : Except ε α} {a : α} : x.toOption = some a ↔ x = .ok a := by
  cases x with
  | error e => simp [Except.toOption]
  | ok b => simp [Except.toOption]

/-- The results of a list are those of its members, in order. -/
theorem forall₂_of_mapM {f : α → Except ε β} {l : List α} {r : List β} (h : l.mapM f = .ok r) :
    List.Forall₂ (fun a b => f a = .ok b) l r := by
  induction l generalizing r with
  | nil =>
    cases h
    exact .nil
  | cons a l ih =>
    rw [List.mapM_cons] at h
    obtain ⟨b, hb, h⟩ := bind_eq_ok.1 h
    obtain ⟨bs, hbs, h⟩ := bind_eq_ok.1 h
    cases h
    exact .cons hb (ih hbs)

/-- And results in order are the result of the list. -/
theorem mapM_of_forall₂ {f : α → Except ε β} {l : List α} {r : List β}
    (h : List.Forall₂ (fun a b => f a = .ok b) l r) : l.mapM f = .ok r := by
  induction h with
  | nil => rfl
  | cons hab _ ih =>
    rw [List.mapM_cons]
    exact bind_eq_ok.2 ⟨_, hab, bind_eq_ok.2 ⟨_, ih, rfl⟩⟩

/-- What stands in the second of two related lists has its counterpart in
the first. -/
theorem exists_mem_of_forall₂ {R : α → β → Prop} {l : List α} {r : List β} {b : β}
    (h : List.Forall₂ R l r) (hb : b ∈ r) : ∃ a ∈ l, R a b := by
  induction h with
  | nil => exact absurd hb List.not_mem_nil
  | @cons a b' l r ha _ ih =>
    rcases List.mem_cons.1 hb with rfl | hb
    · exact ⟨a, List.mem_cons_self, ha⟩
    · obtain ⟨a', hmem, ha'⟩ := ih hb
      exact ⟨a', List.mem_cons_of_mem a hmem, ha'⟩

/-- Related lists that a function each makes equal. -/
theorem map_eq_of_forall₂ {γ : Type} {R : α → β → Prop} {f : α → γ} {g : β → γ} {l : List α}
    {r : List β} (h : List.Forall₂ R l r) (hR : ∀ a b, R a b → f a = g b) :
    l.map f = r.map g := by
  induction h with
  | nil => rfl
  | cons hab _ ih => rw [List.map_cons, List.map_cons, hR _ _ hab, ih]

/-- Lists that are related through a third one. -/
theorem forall₂_comp {γ : Type} {R : α → β → Prop} {S : β → γ → Prop} {l : List α} {r : List β}
    {t : List γ} (h : List.Forall₂ R l r) (h' : List.Forall₂ S r t) :
    List.Forall₂ (fun a c => ∃ b, R a b ∧ S b c) l t := by
  induction h generalizing t with
  | nil =>
    cases h'
    exact .nil
  | cons hab _ ih =>
    cases h' with
    | cons hbc hrest => exact .cons ⟨_, hab, hbc⟩ (ih hrest)

/-- Each result of a list is that of a member. -/
theorem exists_mem_of_mapM {f : α → Except ε β} {l : List α} {r : List β} {b : β}
    (h : l.mapM f = .ok r) (hb : b ∈ r) : ∃ a ∈ l, f a = .ok b := by
  obtain ⟨a, hmem, ha⟩ := exists_mem_of_forall₂ (forall₂_of_mapM h) hb
  exact ⟨a, hmem, ha⟩

/-- Each result of lists that are put together is one of a member's. -/
theorem exists_mem_of_flatMapM {f : α → Except ε (List β)} {l : List α} {r : List β} {b : β}
    (h : l.flatMapM f = .ok r) (hb : b ∈ r) : ∃ a ∈ l, ∃ bs, f a = .ok bs ∧ b ∈ bs := by
  induction l generalizing r with
  | nil =>
    cases h
    exact absurd hb List.not_mem_nil
  | cons a l ih =>
    rw [List.flatMapM_cons] at h
    obtain ⟨bs, hbs, h⟩ := bind_eq_ok.1 h
    obtain ⟨rest, hrest, h⟩ := bind_eq_ok.1 h
    cases h
    rcases List.mem_append.1 hb with hb | hb
    · exact ⟨a, List.mem_cons_self, bs, hbs, hb⟩
    · obtain ⟨a', hmem, bs', hbs', hb'⟩ := ih hrest hb
      exact ⟨a', List.mem_cons_of_mem a hmem, bs', hbs', hb'⟩

/-! ## Two computations -/

/-- **The computations fail alike**, or give results that are related. -/
inductive FailAlike (R : α → β → Prop) : Except ε α → Except ε β → Prop
  | error (e : ε) : FailAlike R (.error e) (.error e)
  | ok {a : α} {b : β} : R a b → FailAlike R (.ok a) (.ok b)

namespace FailAlike

variable {γ δ : Type} {R : α → β → Prop} {S : γ → δ → Prop}

theorem exists_eq_ok {x : Except ε α} {y : Except ε β} (h : FailAlike R x y) {a : α}
    (hx : x = .ok a) : ∃ b, y = .ok b ∧ R a b := by
  cases h with
  | error e => cases hx
  | ok hab =>
    cases hx
    exact ⟨_, rfl, hab⟩

theorem mapError {x : Except ε α} {y : Except ε β} (h : FailAlike R x y) (f : ε → ε') :
    FailAlike R (x.mapError f) (y.mapError f) := by
  cases h with
  | error e => exact .error (f e)
  | ok hab => exact .ok hab

/-- What follows related results fails alike or gives related ones. -/
theorem bind {x : Except ε α} {y : Except ε β} (h : FailAlike R x y) {f : α → Except ε γ}
    {g : β → Except ε δ} (hfg : ∀ a b, R a b → FailAlike S (f a) (g b)) :
    FailAlike S (x >>= f) (y >>= g) := by
  cases h with
  | error e => exact .error e
  | ok hab => exact hfg _ _ hab

/-- Lists that are put together are related if their parts are. -/
theorem flatMapM {R : List β → List γ → Prop} {f : α → Except ε (List β)}
    {g : α → Except ε (List γ)} (hnil : R [] [])
    (happend : ∀ u u' v v', R u u' → R v v' → R (u ++ v) (u' ++ v'))
    (h : ∀ a, FailAlike R (f a) (g a)) (l : List α) :
    FailAlike R (l.flatMapM f) (l.flatMapM g) := by
  induction l with
  | nil => exact .ok hnil
  | cons a l ih =>
    rw [List.flatMapM_cons, List.flatMapM_cons]
    exact (h a).bind fun u u' hu => ih.bind fun v v' hv => .ok (happend u u' v v' hu hv)

end FailAlike

end SmellCheck

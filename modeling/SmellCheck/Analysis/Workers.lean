import SmellCheck.Analysis.Run
/-!
# Workers

Tests are analyzed by several workers at a time. They are handed out in
order, and only while a worker is free. A worker that takes a test looks
first whether the analysis was called off, and gives the test up if it
was. Else it analyzes the test, puts the outcome into the slot of the test
and is free again. Once all tests were handed out and all workers are
free, the slots are read in the order of the tests.

Between any two of these steps the other workers may do theirs. A schedule
says whose turn it is: it lists the tasks in the order in which they move,
a task once for each of its steps. A schedule that hands out a task before
its turn, or while no worker is free, is none.
-/

namespace SmellCheck

/-- How far a task has come. -/
inductive Stage where
  /-- It was not handed out yet. -/
  | waiting
  /-- A worker has it and has not looked whether it was called off. -/
  | taken
  /-- The worker is at it. -/
  | running
  /-- Its outcome is in its slot. -/
  | stored
  /-- The worker is free again. -/
  | returned
  deriving DecidableEq

/-- A worker has the task. -/
def Stage.isActive : Stage → Bool
  | waiting | returned => false
  | taken | running | stored => true

/-- The state of `n` tasks, each with a slot for its outcome. -/
structure Pool (n : Nat) (β : Type) where
  stage : Fin n → Stage
  slot : Fin n → Option β
  /-- A task was given up. -/
  failed : Bool

namespace Pool

variable {n : Nat} {β : Type}

/-- No task was handed out. -/
def start : Pool n β :=
  ⟨fun _ => .waiting, fun _ => none, false⟩

/-- The number of workers that have a task. -/
def active (s : Pool n β) : Nat :=
  (List.finRange n).countP fun i => (s.stage i).isActive

/-- The task that is handed out next. -/
def next? (s : Pool n β) : Option (Fin n) :=
  (List.finRange n).find? fun i => s.stage i == .waiting

/-- All tasks were handed out and all workers are free. -/
def isFinished (s : Pool n β) : Bool :=
  (List.finRange n).all fun i => s.stage i == .returned

/-- The task has come to a stage. -/
def move (s : Pool n β) (i : Fin n) (stage : Stage) : Pool n β :=
  { s with stage := fun j => if j = i then stage else s.stage j }

/-- An outcome is put into the slot of its task. -/
def store (s : Pool n β) (i : Fin n) (outcome : β) : Pool n β :=
  { s with slot := fun j => if j = i then some outcome else s.slot j }

/-- The next step of a task; `none` if it has to wait or has none. -/
def step (work : Fin n → β) (workers : Nat) (calledOff : Bool) (s : Pool n β) (i : Fin n) :
    Option (Pool n β) :=
  match s.stage i with
  | .waiting => if s.next? = some i ∧ s.active < workers then some (s.move i .taken) else none
  | .taken =>
    some (if calledOff then { s.move i .returned with failed := true } else s.move i .running)
  | .running => some ((s.store i (work i)).move i .stored)
  | .stored => some (s.move i .returned)
  | .returned => none

/-- The state behind a schedule; `none` if it is none. -/
def run (work : Fin n → β) (workers : Nat) (calledOff : Bool) (s : Pool n β) :
    List (Fin n) → Option (Pool n β)
  | [] => some s
  | i :: schedule =>
    match step work workers calledOff s i with
    | some s => run work workers calledOff s schedule
    | none => none

end Pool

namespace Assembly

end Assembly

end SmellCheck

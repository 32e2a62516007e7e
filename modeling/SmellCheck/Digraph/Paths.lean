import SmellCheck.Digraph.Basic
/-!
# Paths

The paths between two nodes that stop at the first arrival and meet no
node more than twice. Two visits let every cycle on the way be run
through once. Parallel edges give different paths.
-/

namespace SmellCheck.Digraph

variable {N : Type} [DecidableEq N]

/-- How often a path may meet one node. -/
def visitsPerPath : Nat := 2

/-- The paths from `n` to `target` that spend the visits in `allowance`,
in which a node is listed once for each visit that it has left. -/
def pathsWithin (g : Digraph N) (target : N) (allowance : List N) (n : N) : List (List N) :=
  if _h : n ∈ allowance then
    if n = target then [[n]]
    else
      ((g.headsOf n).flatMap fun head =>
        pathsWithin g target (allowance.erase n) head).map (n :: ·)
  else []
termination_by allowance.length
decreasing_by
  have := List.length_pos_of_mem _h
  rw [List.length_erase_of_mem _h]
  omega

/-- The visits that a path starts with. -/
def fullAllowance (g : Digraph N) : List N :=
  g.nodes.flatMap fun n => List.replicate visitsPerPath n

/-- The paths from `start` to the first arrival at `target`, in the
order of the heads taken. -/
def paths (g : Digraph N) (start target : N) : Except (QueryError N) (List (List N)) :=
  if !g.contains start then .error (.unknownNode (.pathsFrom start))
  else if !g.contains target then .error (.unknownNode (.pathsTo target))
  else .ok (g.pathsWithin target g.fullAllowance start)

end SmellCheck.Digraph

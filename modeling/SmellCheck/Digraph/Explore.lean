/-!
# Depth-first exploration

`explore` expands nodes depth first, each of them once, and records them
with their heads in the order of expansion. The nodes that wait stand on
a stack, where one node may wait several times; heads that were expanded
before do not get there. A given room bounds the number of expansions, so
exploration ends on every space, also where new nodes never cease; a room
of the number of reachable nodes is enough to expand them all.

`exploreWith` explores in the same way where what answers for the heads
may keep a state from one question to the next, such as a record of the
questions.
-/

namespace SmellCheck

/-- Nodes with their heads, in the order of discovery. -/
abbrev Adjacency (N : Type) := List (N × List N)

namespace Adjacency

variable {N : Type}

/-- The nodes in the order of discovery. -/
def nodes (a : Adjacency N) : List N :=
  a.map (·.1)

/-- The node was expanded. -/
def has [BEq N] (a : Adjacency N) (n : N) : Bool :=
  a.any (·.1 == n)

/-- The nodes of a list that were not expanded. -/
def fresh [BEq N] (a : Adjacency N) (ns : List N) : List N :=
  ns.filter fun n => !a.has n

/-- Another node behind those that are listed for `n`, for which there is
an entry then. -/
def push [BEq N] (n m : N) : Adjacency N → Adjacency N
  | [] => [(n, [m])]
  | (k, ms) :: a => if k == n then (k, ms ++ [m]) :: a else (k, ms) :: push n m a

end Adjacency

/-- How an exploration ends, with what it had expanded. -/
inductive Exploration (ε N : Type) where
  /-- No node waits any more. -/
  | complete (found : Adjacency N)
  /-- The heads of a node could not be found. -/
  | failed (found : Adjacency N) (node : N) (error : ε)
  /-- A node waits and there is no room for it. -/
  | full (found : Adjacency N) (node : N)

namespace Exploration

variable {ε N : Type}

/-- What the exploration had expanded. -/
def found : Exploration ε N → Adjacency N
  | complete found => found
  | failed found _ _ => found
  | full found _ => found

end Exploration

variable {ε N : Type} [BEq N]

/-- Expands the nodes on the stack, and in front of the later ones
everything that is reachable from the earlier ones. Nodes that were
found before are passed over. -/
def explore (heads : N → Except ε (List N)) (room : Nat) (stack : List N)
    (found : Adjacency N) : Exploration ε N :=
  match stack with
  | [] => .complete found
  | n :: stack =>
    if found.has n then explore heads room stack found
    else
      match room with
      | 0 => .full found n
      | room + 1 =>
        match heads n with
        | .error e => .failed found n e
        | .ok hs =>
          let found := found ++ [(n, hs)]
          explore heads room (found.fresh hs ++ stack) found
termination_by (room, stack.length)

/-- Explores with heads that are answered from a state, which every answer
may change, and gives the last state too. -/
def exploreWith {σ : Type} (answer : σ → N → σ × Except ε (List N)) (room : Nat)
    (stack : List N) (found : Adjacency N) (s : σ) : σ × Exploration ε N :=
  match stack with
  | [] => (s, .complete found)
  | n :: stack =>
    if found.has n then exploreWith answer room stack found s
    else
      match room with
      | 0 => (s, .full found n)
      | room + 1 =>
        match answer s n with
        | (s, .error e) => (s, .failed found n e)
        | (s, .ok hs) =>
          let found := found ++ [(n, hs)]
          exploreWith answer room (found.fresh hs ++ stack) found s
termination_by (room, stack.length)

/-- Answers for heads and records for which nodes. -/
def recording (heads : N → Except ε (List N)) (asked : List N) (n : N) :
    List N × Except ε (List N) :=
  (asked ++ [n], heads n)

/-! ## Tables -/

/-- The heads of some nodes; the other nodes have none. -/
abbrev HeadTable (N : Type) := List (N × List N)

namespace HeadTable

/-- The heads of a node. -/
def heads (t : HeadTable N) (n : N) : List N :=
  (t.lookup n).getD []

/-- As many nodes as an exploration of the table can find. -/
def room (t : HeadTable N) : Nat :=
  t.foldr (fun row n => row.2.length + n) 1

/-- Explores the table from a root, where the heads of some nodes may be
refused, and lists the nodes whose heads were asked for. -/
def explore (t : HeadTable N) (refused : N → Option ε) (root : N) : List N × Exploration ε N :=
  exploreWith
    (recording fun n => match refused n with
      | some e => .error e
      | none => .ok (t.heads n))
    t.room [root] [] []

end HeadTable

end SmellCheck

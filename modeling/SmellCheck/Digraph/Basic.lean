import SmellCheck.Digraph.Explore
import SmellCheck.Text.Numeral
/-!
# Directed graphs

A directed multigraph with a root, from which every node was discovered.
The heads of a node are its successors and its tails its predecessors;
parallel edges are kept, so a node may be listed more than once.
-/

namespace SmellCheck

/-- A directed multigraph with a root. -/
structure Digraph (N : Type) where
  root : N
  /-- Every node with its heads, in the order of discovery. -/
  adjacency : Adjacency N
  deriving DecidableEq

namespace Digraph

/-! ## Queries and their failures -/

/-- A question about nodes. -/
inductive Query (N : Type) where
  | heads (n : N)
  | headAt (index : Int) (n : N)
  | outDegree (n : N)
  | tails (n : N)
  | pathsFrom (n : N)
  | pathsTo (n : N)

/-- Why a question has no answer. -/
inductive QueryError (N : Type) where
  | unknownNode (query : Query N)
  | indexOutOfRange (index : Int) (n : N) (degree : Nat)

/-- The wording of a question, with the given wording of nodes. -/
def Query.text {N : Type} (name : N → String) : Query N → String
  | heads n => "heads for " ++ name n
  | headAt index n => "head " ++ Text.decimal index ++ " of " ++ name n
  | outDegree n => "out degree of " ++ name n
  | tails n => "tails for " ++ name n
  | pathsFrom n => "paths from " ++ name n
  | pathsTo n => "paths to " ++ name n

/-- The wording of a failure, with the given wording of nodes. -/
def QueryError.message {N : Type} (name : N → String) : QueryError N → String
  | unknownNode query => query.text name ++ ": unknown node"
  | indexOutOfRange index n degree =>
    (Query.headAt index n).text name ++ " (out degree " ++ Nat.repr degree
      ++ "): head index out of range"

variable {N ε : Type} [BEq N]

/-- The nodes in the order of discovery. -/
def nodes (g : Digraph N) : List N :=
  g.adjacency.nodes

/-- The number of nodes. -/
def order (g : Digraph N) : Nat :=
  g.adjacency.length

/-- The node belongs to the graph. -/
def contains (g : Digraph N) (n : N) : Bool :=
  g.adjacency.has n

/-- The heads of a node of the graph. -/
def heads? (g : Digraph N) (n : N) : Option (List N) :=
  g.adjacency.lookup n

/-- The heads of a node; none if it does not belong to the graph. -/
def headsOf (g : Digraph N) (n : N) : List N :=
  (g.heads? n).getD []

/-- The nodes that have `n` as a head, in the order of discovery, once
for each edge. -/
def tailsOf (g : Digraph N) (n : N) : List N :=
  g.adjacency.flatMap fun (m, hs) => (hs.filter (· == n)).map fun _ => m

/-- The successors of a node. -/
def heads (g : Digraph N) (n : N) : Except (QueryError N) (List N) :=
  match g.heads? n with
  | some hs => .ok hs
  | none => .error (.unknownNode (.heads n))

/-- The successor of a node with the given index. -/
def headAt (g : Digraph N) (n : N) (index : Int) : Except (QueryError N) N :=
  match g.heads? n with
  | none => .error (.unknownNode (.headAt index n))
  | some hs =>
    match if index < 0 then none else hs[index.toNat]? with
    | some head => .ok head
    | none => .error (.indexOutOfRange index n hs.length)

/-- The number of edges from a node. -/
def outDegree (g : Digraph N) (n : N) : Except (QueryError N) Nat :=
  match g.heads? n with
  | some hs => .ok hs.length
  | none => .error (.unknownNode (.outDegree n))

/-- The tails of all nodes, filled in edge by edge: every node has its
entry from the start, and a head that is no node gets one too. -/
def tailTable (g : Digraph N) : Adjacency N :=
  g.adjacency.foldl (fun table (n, hs) => hs.foldl (fun table h => table.push h n) table)
    (g.nodes.map fun n => (n, []))

/-- The predecessors of a node, once for each edge. -/
def tails (g : Digraph N) (n : N) : Except (QueryError N) (List N) :=
  match g.tailTable.lookup n with
  | some ts => .ok ts
  | none => .error (.unknownNode (.tails n))

/-! ## Construction -/

/-- The graph of what an exploration found from its root. -/
def ofExploration (root : N) (outcome : Exploration ε N) : Digraph N :=
  ⟨root, outcome.found⟩

/-- The graph of everything reachable from a root, of which there are no
more nodes than the room. -/
def ofHeads (heads : N → List N) (room : Nat) (root : N) : Digraph N :=
  let outcome : Exploration Empty N := explore (fun n => .ok (heads n)) room [root] []
  ofExploration root outcome

/-! ## Walks -/

/-- The nodes reachable from `start`, depth first, in the order in which
they are met. There are none if `start` does not belong to the graph. -/
def walkFrom (g : Digraph N) (start : N) : List N :=
  if g.contains start then (ofHeads g.headsOf g.order start).nodes else []

/-- The nodes depth first from the root. -/
def walk (g : Digraph N) : List N :=
  g.walkFrom g.root

/-- Hands nodes to a consumer, which takes each of them into its state and
says whether it wants another one: the nodes on the stack, and in front of
the later ones what is reachable from the earlier ones, but none that was
visited before. -/
def feed {σ : Type} (g : Digraph N) (consume : σ → N → σ × Bool) (room : Nat)
    (stack visited : List N) (s : σ) : σ :=
  match stack with
  | [] => s
  | n :: stack =>
    if visited.contains n then feed g consume room stack visited s
    else
      match room with
      | 0 => s
      | room + 1 =>
        match consume s n with
        | (s, false) => s
        | (s, true) =>
          let visited := n :: visited
          let fresh := (g.headsOf n).filter fun h => !visited.contains h
          feed g consume room (fresh ++ stack) visited s
termination_by (room, stack.length)

/-- Hands the nodes reachable from `start` to a consumer, one at a time
and no more than it wants. -/
def feedFrom {σ : Type} (g : Digraph N) (start : N) (consume : σ → N → σ × Bool) (s : σ) : σ :=
  if g.contains start then g.feed consume g.order [start] [] s else s

/-- What a consumer sees that stops after the given number of nodes. -/
def walkAtMost (g : Digraph N) (start : N) : (limit : Nat) → List N
  | 0 => []
  | limit + 1 => g.feedFrom start (fun seen n => (seen ++ [n], seen.length < limit)) []

end Digraph

end SmellCheck

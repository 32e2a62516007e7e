import SmellCheck.Digraph.Basic
/-!
# Trees by grouping

Rules give nodes their parents: each kind of node, told by its tag, has
guarded rules, which are tried in order, and possibly one for all other
nodes of the kind. Folding a list of leaves upward by these rules gives a
tree if exactly one node without a parent is met. The number of new
nodes above one leaf is bounded, since rules may invent parents forever.
-/

namespace SmellCheck

/-- The rules for the nodes with one tag. -/
structure Grouping (N : Type) where
  /-- Tried in order, before the fallback. -/
  guarded : List ((N → Bool) × (N → N)) := []
  fallback : Option (N → N) := none

/-- Rules by tag. -/
structure Grouper (N : Type) where
  tag : N → String
  groups : List (String × Grouping N) := []

/-- Why leaves do not fold into a tree. -/
inductive TreeError (N : Type) where
  | noLeaves
  | tooDeep
  | noRoot
  | manyRoots (candidates : List N)
  deriving DecidableEq

/-- How many new nodes one leaf may bring, itself among them. -/
def maxNewNodes : Nat := 1024

/-- The wording of a failure, with the given wording of nodes. -/
def TreeError.message {N : Type} (name : N → String) (e : TreeError N) : String :=
  "malformed tree: " ++
    match e with
    | noLeaves => "no leaves"
    | tooDeep => "more than " ++ Nat.repr maxNewNodes ++ " levels above a leaf"
    | noRoot => "grouping never reaches a root"
    | manyRoots candidates =>
      Nat.repr candidates.length ++ " candidate roots ["
        ++ " ".intercalate (candidates.map name) ++ "]"

namespace Grouper

variable {N : Type}

/-- The rules for a tag. -/
def group (b : Grouper N) (tag : String) : Grouping N :=
  (b.groups.lookup tag).getD {}

/-- The rules, with the group of a tag changed. -/
def modifyGroup (b : Grouper N) (tag : String) (f : Grouping N → Grouping N) : Grouper N :=
  { b with groups := (tag, f (b.group tag)) :: b.groups.filter (·.1 != tag) }

/-- Adds a guarded rule behind the others. -/
def whenAs (b : Grouper N) (tag : String) (guard : N → Bool) (parent : N → N) : Grouper N :=
  b.modifyGroup tag fun g => { g with guarded := g.guarded ++ [(guard, parent)] }

/-- Sets the rule for nodes that no guard admits. -/
def otherwise (b : Grouper N) (tag : String) (parent : N → N) : Grouper N :=
  b.modifyGroup tag fun g => { g with fallback := some parent }

/-- The parent that the first rule to apply gives a node. -/
def parent? (b : Grouper N) (n : N) : Option N :=
  let g := b.group (b.tag n)
  match g.guarded.find? (·.1 n) with
  | some rule => some (rule.2 n)
  | none => g.fallback.map (· n)

variable [BEq N]

/-- Adds a leaf and what is new above it. -/
def climb (b : Grouper N) (found : Adjacency N) (leaf : N) :
    Except (TreeError N) (Adjacency N) :=
  let outcome : Exploration Empty N :=
    explore (fun n => .ok (b.parent? n).toList) maxNewNodes [leaf] found
  match outcome with
  | .full _ _ => .error .tooDeep
  | outcome => .ok outcome.found

/-- The nodes without a parent. -/
def headless (found : Adjacency N) : List N :=
  Adjacency.nodes (found.filter (·.2.isEmpty))

/-- Folds leaves into a tree whose edges lead from parents to children. -/
def build (b : Grouper N) (leaves : List N) : Except (TreeError N) (Digraph N) := do
  if leaves.isEmpty then throw .noLeaves
  let found ← leaves.foldlM b.climb []
  match headless found with
  | [] => throw .noRoot
  | [root] =>
    let upward : Digraph N := ⟨root, found⟩
    return Digraph.ofHeads upward.tailsOf upward.order root
  | candidates => throw (.manyRoots candidates)

end Grouper

end SmellCheck

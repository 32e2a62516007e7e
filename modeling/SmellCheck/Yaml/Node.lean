import SmellCheck.Yaml.Token
/-!
# YAML nodes

A document is a node: a scalar, a sequence of nodes, a mapping with its
entries in order, or an alias, which stands for a node with an anchor
further up. `Document.read` gives the first document of a text. What
follows the node of that document is not looked at beyond the tokens that
were cut off already.
-/

namespace SmellCheck.Yaml

/-- A value of a document. A scalar keeps its text, whether it was written
plain, and its tag if one is given. An alias keeps its name and the number
of the node that it stands for. -/
inductive Node where
  | scalar (text : String) (plain : Bool) (tag : Option String := none)
  | sequence (items : List Node)
  | mapping (entries : List (Node × Node))
  | alias (name : String) (anchor : Nat)

/-- The node that is not written. -/
def Node.empty : Node :=
  .scalar "" true

instance : Inhabited Node :=
  ⟨.empty⟩

/-- The root node of a document, and its nodes with anchors by number. -/
structure Document where
  root : Node
  anchored : List (Nat × Node) := []

/-- Where the reading of a document stands. -/
structure Reading where
  scan : Scan
  /-- What the handles of tags stand for. -/
  handles : List (String × String) := []
  /-- The anchors by name, the latest first. -/
  names : List (String × Nat) := []
  /-- The nodes with anchors that are complete. -/
  anchored : List (Nat × Node) := []

/-- A step of reading, which may meet a fault. -/
abbrev Step := StateT Reading (Except Fault)

/-- The next token. -/
def peek : Step Token := do
  let r ← get
  let (t, scan) ← r.scan.peek
  set { r with scan }
  return t

/-- Passes over the next token. -/
def next : Step Unit :=
  modify fun r => { r with scan := r.scan.drop }

/-- Where a node stands: in a flow collection, in a block, or in a block
whose sequences need no deeper indentation. -/
inductive Place where
  | flow
  | block
  | entryOfMapping
  deriving DecidableEq

/-! ## Anchors and tags -/

/-- What stands in front of a node. -/
structure Properties where
  anchor : Option String := none
  tag : Option String := none

/-- The long form of the tags of the language itself begins with this. -/
def standardLead : String := "tag:yaml.org,2002:"

/-- The short form of a tag: two exclamation marks stand for the long
beginning. -/
def shortTag (tag : String) : String :=
  if tag.startsWith standardLead then
    String.ofList ("!!".toList ++ tag.toList.drop standardLead.length)
  else tag

/-- The tag that is written. -/
def resolveTag (t : WrittenTag) : Step String := do
  if t.handle = "" then return t.suffix
  match (← get).handles.lookup t.handle with
  | some stands => if stands ++ t.suffix = "" then throw .unknownTagHandle else return stands ++ t.suffix
  | none => throw .unknownTagHandle

/-- Reads an anchor, a tag, or both in either order. -/
def takeProperties : Step Properties := do
  match ← peek with
  | .anchor name =>
    next
    match ← peek with
    | .tag t =>
      next
      let _ ← peek
      return { anchor := some name, tag := some (← resolveTag t) }
    | _ => return { anchor := some name }
  | .tag t =>
    next
    match ← peek with
    | .anchor name =>
      next
      let _ ← peek
      return { anchor := some name, tag := some (← resolveTag t) }
    | _ => return { tag := some (← resolveTag t) }
  | _ => return {}

/-- The tag that a node keeps. A lone exclamation mark says nothing. -/
def Properties.keptTag (p : Properties) : Option String :=
  (p.tag.filter (· != "!")).map shortTag

/-- Names the node that comes next, and gives its number. -/
def openAnchor (p : Properties) : Step (Option Nat) := do
  match p.anchor with
  | none => return none
  | some name =>
    let r ← get
    let number := r.names.length
    set { r with names := (name, number) :: r.names }
    return some number

/-- The node is complete. -/
def closeAnchor (number : Option Nat) (n : Node) : Step Node := do
  match number with
  | none => return n
  | some i =>
    modify fun r => { r with anchored := (i, n) :: r.anchored }
    return n

/-! ## Nodes -/

mutual

/-- Reads a node. -/
def takeNode (place : Place) : (fuel : Nat) → Step Node
  | 0 => throw .unexpectedToken
  | fuel + 1 => do
    match ← peek with
    | .alias name =>
      match (← get).names.lookup name with
      | none => throw .unknownAnchor
      | some number =>
        next
        return .alias name number
    | _ =>
      let p ← takeProperties
      let number ← openAnchor p
      closeAnchor number (← takeContent place p fuel)

/-- Reads what stands behind the properties of a node. -/
def takeContent (place : Place) (p : Properties) : (fuel : Nat) → Step Node
  | 0 => throw .unexpectedToken
  | fuel + 1 => do
    match ← peek, place with
    | .entry, .entryOfMapping => return .sequence (← takeIndentless fuel)
    | .scalar text plain, _ =>
      next
      return .scalar text plain p.keptTag
    | .openSequence, _ =>
      next
      return .sequence (← takeFlowItems true fuel)
    | .openMapping, _ =>
      next
      return .mapping (← takeFlowEntries true fuel)
    | .blockSequence, .block | .blockSequence, .entryOfMapping =>
      next
      return .sequence (← takeItems fuel)
    | .blockMapping, .block | .blockMapping, .entryOfMapping =>
      next
      return .mapping (← takeEntries fuel)
    | _, _ =>
      if p.anchor.isSome || p.tag.isSome then return .scalar "" true p.keptTag
      else throw .unexpectedToken

/-- Reads a node, or an empty one in front of one of the given tokens. -/
def takeNodeUnless (place : Place) (ends : List Token) : (fuel : Nat) → Step Node
  | 0 => throw .unexpectedToken
  | fuel + 1 => do
    if ends.contains (← peek) then return .empty else takeNode place fuel

/-- Reads the items of a block sequence and its end. -/
def takeItems : (fuel : Nat) → Step (List Node)
  | 0 => throw .unexpectedToken
  | fuel + 1 => do
    match ← peek with
    | .entry =>
      next
      let item ← takeNodeUnless .block [.entry, .blockEnd] fuel
      return item :: (← takeItems fuel)
    | .blockEnd =>
      next
      return []
    | _ => throw .unexpectedToken

/-- Reads the items of a sequence at the indentation of its key. -/
def takeIndentless : (fuel : Nat) → Step (List Node)
  | 0 => throw .unexpectedToken
  | fuel + 1 => do
    match ← peek with
    | .entry =>
      next
      let item ← takeNodeUnless .block [.entry, .key, .value, .blockEnd] fuel
      return item :: (← takeIndentless fuel)
    | _ => return []

/-- Reads the entries of a block mapping and its end. -/
def takeEntries : (fuel : Nat) → Step (List (Node × Node))
  | 0 => throw .unexpectedToken
  | fuel + 1 => do
    let ends : List Token := [.key, .value, .blockEnd]
    match ← peek with
    | .key =>
      next
      let key ← takeNodeUnless .entryOfMapping ends fuel
      let value ← takeMarkedValue .entryOfMapping ends fuel
      return (key, value) :: (← takeEntries fuel)
    | .blockEnd =>
      next
      return []
    | _ => throw .unexpectedToken

/-- Reads a value behind its colon, or an empty one if there is none. -/
def takeMarkedValue (place : Place) (ends : List Token) : (fuel : Nat) → Step Node
  | 0 => throw .unexpectedToken
  | fuel + 1 => do
    match ← peek with
    | .value =>
      next
      takeNodeUnless place ends fuel
    | _ => return .empty

/-- Reads the items of a flow sequence and its closing bracket. -/
def takeFlowItems (first : Bool) : (fuel : Nat) → Step (List Node)
  | 0 => throw .unexpectedToken
  | fuel + 1 => do
    let ends : List Token := [.comma, .closeSequence]
    let t ← peek
    if !first && t = .comma then next
    else if !first && t != .closeSequence then throw .unexpectedToken
    match ← peek with
    | .closeSequence =>
      next
      return []
    | .key =>
      next
      let key ← takePairKey fuel
      let value ← takeMarkedValue .flow ends fuel
      let _ ← peek
      return .mapping [(key, value)] :: (← takeFlowItems false fuel)
    | _ =>
      let item ← takeNode .flow fuel
      return item :: (← takeFlowItems false fuel)

/-- Reads the key of a single pair in a flow sequence. The token behind
a key that is not written is passed over. -/
def takePairKey : (fuel : Nat) → Step Node
  | 0 => throw .unexpectedToken
  | fuel + 1 => do
    if [Token.value, .comma, .closeSequence].contains (← peek) then
      next
      return .empty
    else takeNode .flow fuel

/-- Reads the entries of a flow mapping and its closing bracket. -/
def takeFlowEntries (first : Bool) : (fuel : Nat) → Step (List (Node × Node))
  | 0 => throw .unexpectedToken
  | fuel + 1 => do
    let ends : List Token := [.comma, .closeMapping]
    let t ← peek
    if !first && t = .comma then next
    else if !first && t != .closeMapping then throw .unexpectedToken
    match ← peek with
    | .closeMapping =>
      next
      return []
    | .key =>
      next
      let key ← takeNodeUnless .flow (.value :: ends) fuel
      let value ← takeMarkedValue .flow ends fuel
      return (key, value) :: (← takeFlowEntries false fuel)
    | _ =>
      let key ← takeNode .flow fuel
      let _ ← peek
      return (key, .empty) :: (← takeFlowEntries false fuel)

end

/-! ## Documents -/

/-- What handles stand for unless a directive says otherwise. -/
def standardHandles : List (String × String) :=
  [("!", "!"), ("!!", standardLead)]

/-- Reads the directives in front of a document. There may be one on the
version, which must be 1.1, and one on each handle. -/
def takeDirectives (versioned : Bool) (handles : List (String × String)) :
    (fuel : Nat) → Step (List (String × String))
  | 0 => throw .unexpectedToken
  | fuel + 1 => do
    match ← peek with
    | .directive (.version major minor) =>
      if versioned || major != 1 || minor != 1 then throw .badDirective
      next
      takeDirectives true handles fuel
    | .directive (.handle name stands) =>
      if (handles.lookup name).isSome then throw .badDirective
      next
      takeDirectives versioned (handles ++ [(name, stands)]) fuel
    | _ => return handles

/-- Reads the node behind the mark of a document's start, which may be
missing. -/
def takeRoot (fuel : Nat) : Step Node := do
  match ← peek with
  | .directive _ | .documentStart | .documentEnd | .streamEnd => return .empty
  | _ => takeNode .block fuel

/-- Reads the first document; `none` if there is none. -/
def takeDocument (fuel : Nat) : Step (Option Node) := do
  match ← peek with
  | .streamEnd => return none
  | t =>
    let handles ← takeDirectives false [] fuel
    modify fun r => { r with handles := handles ++ standardHandles }
    let node ← match t, ← peek with
      | .directive _, .documentStart | .documentStart, .documentStart => do
        next
        takeRoot fuel
      | .directive _, _ => throw .unexpectedToken
      | _, _ => takeNode .block fuel
    let _ ← peek
    return some node

/-- The first document of a text; `none` if the text holds none. -/
def Document.read (source : String) : Except Fault (Option Document) := do
  let fuel := 16 * source.length + 16
  let (root, r) ← (takeDocument fuel).run { scan := .start source }
  return root.map fun root => { root, anchored := r.anchored }

end SmellCheck.Yaml

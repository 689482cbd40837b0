import Tablewright.Markup.Document

/-! The value of a document. Every node is made once. Collections are made empty and filled later,
round by round, so a node may lead back to itself. -/

namespace Tablewright.Markup

inductive Made where
  | value (v : Value)
  | list (items : List Nat)
  | pairs (items : List (Nat × Nat))
  | set (keys : List Value)
  | map (entries : List (Value × Nat))

/-- The nodes, what was made of them, and the collections made in this round, the last one first. -/
structure Workshop where
  nodes : Nodes
  made : Array (Option Made)
  empty : List Nat := []

abbrev Build := StateT Workshop (Except Flaw)

namespace Build

def malformed {α : Type} : Build α := throw .malformed

def node (id : Nat) : Build Node := do return (← get).nodes.getD id default

def keep (id : Nat) (m : Made) : Build Unit :=
  modify fun w => { w with made := w.made.setIfInBounds id (some m) }

def text (nodes : Nodes) : Nat → Nat → Option (List Nat)
  | 0, _ => none
  | fuel + 1, id =>
    match (nodes.getD id default).content with
    | .scalar points => some points
    | .list _ => none
    | .map entries =>
      (entries.find? fun e => (nodes.getD e.1 default).kind = .standIn).bind fun e =>
        text nodes fuel e.2

def scalar (id : Nat) (n : Node) : Build Value := do
  let nodes := (← get).nodes
  let points ← orMalformed (text nodes (nodes.size + 1) id)
  match n.kind, n.content with
  | .moment, .map _ => throw (.fault (.notMatchable "list"))
  | kind, _ => scalarOf kind points

def make (id : Nat) : Build Unit := do
  if (((← get).made[id]?).join).isSome then return
  let n ← node id
  let begin_ (m : Made) : Build Unit := do
    keep id m
    modify fun w => { w with empty := id :: w.empty }
  match n.kind with
  | .list => begin_ (.list [])
  | .pairs => begin_ (.pairs [])
  | .set => begin_ (.set [])
  | .map => begin_ (.map [])
  | _ => keep id (.value (← scalar id n))

def key (id : Nat) : Build Value := do
  make id
  match ((← get).made[id]?).join with
  | some (.value v) => return v
  | _ => malformed

/-- The entries of a map node without the first mark of merging, with what stood under it. -/
def takeMerge (nodes : Nodes) : List (Nat × Nat) → Option (Nat × List (Nat × Nat))
  | [] => none
  | e :: rest =>
    if (nodes.getD e.1 default).kind = .merge then some (e.2, rest)
    else (takeMerge nodes rest).map fun r => (r.1, e :: r.2)

def entries (id : Nat) : Build (List (Nat × Nat)) := do
  match (← node id).content with
  | .map entries => return entries
  | _ => malformed

def setEntries (id : Nat) (entries : List (Nat × Nat)) : Build Unit := do
  let n ← node id
  modify fun w => { w with nodes := w.nodes.setIfInBounds id { n with content := .map entries } }

def settleKeys (id : Nat) : Build Unit := do
  for e in ← entries id do
    let k ← node e.1
    if k.kind = .standIn then
      modify fun w => { w with nodes := w.nodes.setIfInBounds e.1 { k with kind := .text } }

mutual

/-- Takes the entries of other maps into a map, in front of its own. Every mark of merging is taken
away before what stands under it is looked at, so as many steps as there are entries are enough. -/
def flatten : Nat → Nat → Build Unit
  | 0, _ => malformed
  | fuel + 1, id => do
    let taken ← mergeAll fuel id
    settleKeys id
    if !taken.isEmpty then setEntries id (taken ++ (← entries id))

def mergeAll : Nat → Nat → Build (List (Nat × Nat))
  | 0, _ => malformed
  | fuel + 1, id => do
    match takeMerge (← get).nodes (← entries id) with
    | none => return []
    | some (source, rest) =>
      setEntries id rest
      let here ← merged fuel source
      return here ++ (← mergeAll fuel id)

/-- The entries of a map, or of a list of maps the first of which counts most. -/
def merged : Nat → Nat → Build (List (Nat × Nat))
  | 0, _ => malformed
  | fuel + 1, source => do
    match (← node source).content with
    | .map _ =>
      flatten fuel source
      entries source
    | .list items => do
      let parts ← mergedItems fuel items
      return parts.reverse.flatten
    | .scalar _ => malformed

def mergedItems : Nat → List Nat → Build (List (List (Nat × Nat)))
  | 0, _ => malformed
  | _, [] => return []
  | fuel + 1, item :: rest => do
    match (← node item).content with
    | .map _ =>
      flatten fuel item
      let here ← entries item
      return here :: (← mergedItems fuel rest)
    | _ => malformed

end

def put (k : Value) (id : Nat) : List (Value × Nat) → List (Value × Nat)
  | [] => [(k, id)]
  | e :: rest => if e.1.sameKey k then (e.1, id) :: rest else e :: put k id rest

def steps (nodes : Nodes) : Nat :=
  let parts := nodes.toList.map fun n => match n.content with
    | .scalar _ => 1
    | .list items => items.length + 1
    | .map entries => entries.length + 1
  8 * (parts.foldl (· + ·) 8)

def mapEntries (id : Nat) : Build (List (Value × Nat)) := do
  let _ ← entries id
  flatten (steps (← get).nodes) id
  (← entries id).foldlM (fun made e => do
    let k ← key e.1
    make e.2
    return put k e.2 made) []

def fill (id : Nat) : Build Unit := do
  let n ← node id
  match n.kind, n.content with
  | .list, .list items =>
    items.forM make
    keep id (.list items)
  | .pairs, .list items =>
    keep id (.pairs (← items.mapM fun item => do
      match ← entries item with
      | [e] =>
        make e.1
        make e.2
        return e
      | _ => malformed))
  | .set, .map _ => keep id (.set ((← mapEntries id).map (·.1)))
  | .map, .map _ => keep id (.map (← mapEntries id))
  | _, _ => malformed

def fillAll : Nat → Build Unit
  | 0 => return
  | rounds + 1 => do
    let waiting := (← get).empty.reverse
    if waiting.isEmpty then return
    modify fun w => { w with empty := [] }
    waiting.forM fill
    fillAll rounds

/-- The value of a node; `around` holds the collections around it from the innermost one on. A node
inside itself refers to the one around. -/
def value (made : Array (Option Made)) : Nat → List (Option Nat) → Nat → Value
  | 0, _, _ => .null
  | fuel + 1, around, id =>
    match around.findIdx? (· = some id) with
    | some depth => .outer depth
    | none =>
      let inside := some id :: around
      match (made[id]?).join with
      | none => .null
      | some (.value v) => v
      | some (.list items) => .list (items.map (value made fuel inside))
      | some (.pairs items) =>
        let part := value made fuel (none :: inside)
        .list (items.map fun e => .tuple [part e.1, part e.2])
      | some (.set keys) => .set keys
      | some (.map entries) => .map (entries.map fun e => (e.1, value made fuel inside e.2))

end Build

def valueOf (s : String) : Except Flaw Value := do
  match ← documentOf s with
  | (_, none) => return .null
  | (nodes, some root) =>
    let build : Build Unit := do
      Build.make root
      Build.fillAll (nodes.size + 1)
    let (_, w) ← build.run { nodes, made := Array.replicate nodes.size none }
    return Build.value w.made (2 * nodes.size + 2) [] root

end Tablewright.Markup

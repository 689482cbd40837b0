import Tablewright.Markup.Token
import Tablewright.Markup.Word

namespace Tablewright.Markup

/-- The tokens left to read and the flaw behind them, the nodes read so far, the named ones among
them, and what the handles of tags stand for. -/
structure Reader where
  tokens : List Token
  flaw : Option Flaw := none
  nodes : Nodes := #[]
  named : List (String × Nat) := []
  handles : List (String × String) := []

abbrev Read := StateT Reader (Except Flaw)

namespace Read

def malformed {α : Type} : Read α := throw .malformed

def peek : Read (Option Token) := do
  let r ← get
  match r.tokens.head?, r.flaw with
  | none, some flaw => throw flaw
  | next, _ => return next

def advance : Read Unit := modify fun r => { r with tokens := r.tokens.tail }

def accept (t : Token) : Read Bool := do
  if (← peek) = some t then advance; return true else return false

def expect (t : Token) : Read Unit := do
  if !(← accept t) then malformed

def isNext (ts : List Token) : Read Bool := do
  return (← peek).any ts.contains

def lookup (name : String) : Read Nat := do
  match (← get).named.lookup name with
  | some id => return id
  | none => malformed

def reserve (anchor : Option String) (node : Node) : Read Nat := do
  let r ← get
  let id := r.nodes.size
  let named := match anchor with
    | some a => (a, id) :: r.named
    | none => r.named
  set { r with nodes := r.nodes.push node, named }
  return id

def define (id : Nat) (node : Node) : Read Unit :=
  modify fun r => { r with nodes := r.nodes.setIfInBounds id node }

def anchor? : Read (Option String) := do
  match ← peek with
  | some (.anchor a) =>
    advance
    if ((← get).named.lookup a).isSome then malformed
    return some a
  | _ => return none

def tag? : Read (Option String) := do
  match ← peek with
  | some (.tag none suffix) => advance; return some suffix
  | some (.tag (some handle) suffix) =>
    advance
    match (← get).handles.lookup handle with
    | some meaning => return some (meaning ++ suffix)
    | none => malformed
  | _ => return none

def properties : Read (Option String × Option String) := do
  let tag ← tag?
  let anchor ← anchor?
  let tag ← if tag.isSome then pure tag else tag?
  return (anchor, tag)

def kindOf (own : NodeKind) : Option String → NodeKind
  | none => own
  | some t => if t = "!" then own else .ofName t

/-- The kind of a text. A plain one without a tag, and any whose tag names no kind, is what its form
says. -/
def scalarKind (tag : Option String) (plain : Bool) (points : List Nat) : NodeKind :=
  match tag with
  | none => if plain then formOfPoints points else .text
  | some t => if t = "!" then formOfPoints points else .ofName t

def scalar (anchor tag : Option String) (plain : Bool) (points : List Nat) : Read Nat :=
  reserve anchor ⟨scalarKind tag plain points, .scalar points⟩

def nothing : Read Nat := scalar none none true []

def list (anchor tag : Option String) (items : Read (List Nat)) : Read Nat := do
  let kind := kindOf .list tag
  let id ← reserve anchor ⟨kind, .list []⟩
  define id ⟨kind, .list (← items)⟩
  return id

def map (anchor tag : Option String) (entries : Read (List (Nat × Nat))) : Read Nat := do
  let kind := kindOf .map tag
  let id ← reserve anchor ⟨kind, .map []⟩
  define id ⟨kind, .map (← entries)⟩
  return id

mutual

/-- A node. Outside brackets it may be a block; as the value of a key in a block it may also be a
list that is not indented. -/
def node (inBlock unindented : Bool) : Nat → Read Nat
  | 0 => malformed
  | fuel + 1 => do
    match ← peek with
    | some (.reference a) => advance; lookup a
    | _ =>
      let (anchor, tag) ← properties
      match ← peek with
      | some (.scalar plain points) => advance; scalar anchor tag plain points
      | some .openList => advance; list anchor tag (flowItems true fuel)
      | some .openMap => advance; map anchor tag (flowPairs true fuel)
      | some .openBlockList =>
        if !inBlock then malformed
        advance
        list anchor tag (blockItems fuel)
      | some .openBlockMap =>
        if !inBlock then malformed
        advance
        map anchor tag (blockPairs fuel)
      | next =>
        if next = some .item && unindented then list anchor tag (plainItems fuel)
        else if anchor.isSome || tag.isSome then scalar anchor tag true []
        else malformed

def nodeUnless (ends : List Token) (inBlock unindented : Bool) : Nat → Read Nat
  | 0 => malformed
  | fuel + 1 => do
    if ← isNext ends then nothing else node inBlock unindented fuel

def blockItems : Nat → Read (List Nat)
  | 0 => malformed
  | fuel + 1 => do
    if ← accept .item then
      let v ← nodeUnless [.item, .closeBlock] true false fuel
      return v :: (← blockItems fuel)
    else
      expect .closeBlock
      return []

def plainItems : Nat → Read (List Nat)
  | 0 => malformed
  | fuel + 1 => do
    if ← accept .item then
      let v ← nodeUnless [.item, .key, .value, .closeBlock] true false fuel
      return v :: (← plainItems fuel)
    else return []

def blockPairs : Nat → Read (List (Nat × Nat))
  | 0 => malformed
  | fuel + 1 => do
    let ends := [Token.key, .value, .closeBlock]
    if ← accept .closeBlock then return []
    expect .key
    let k ← nodeUnless ends true true fuel
    let v ← if ← accept .value then nodeUnless ends true true fuel else nothing
    return (k, v) :: (← blockPairs fuel)

def flowItems (first : Bool) : Nat → Read (List Nat)
  | 0 => malformed
  | fuel + 1 => do
    if ← accept .closeList then return []
    if !first then
      expect .comma
      if ← accept .closeList then return []
    let v ← if ← accept .key then map none none (pairInList fuel) else node false false fuel
    return v :: (← flowItems false fuel)

def pairInList : Nat → Read (List (Nat × Nat))
  | 0 => malformed
  | fuel + 1 => do
    let k ← nodeUnless [.value, .comma, .closeList] false false fuel
    let v ← if ← accept .value then nodeUnless [.comma, .closeList] false false fuel else nothing
    return [(k, v)]

def flowPairs (first : Bool) : Nat → Read (List (Nat × Nat))
  | 0 => malformed
  | fuel + 1 => do
    if ← accept .closeMap then return []
    if !first then
      expect .comma
      if ← accept .closeMap then return []
    let marked ← accept .key
    let k ← if marked then nodeUnless [.value, .comma, .closeMap] false false fuel
      else node false false fuel
    let v ← if marked && (← accept .value) then nodeUnless [.comma, .closeMap] false false fuel
      else nothing
    return (k, v) :: (← flowPairs false fuel)

end

/-- The directives before a document; each handle is given a meaning once, and the version is 1. -/
def directives (versioned : Bool) : Nat → Read Unit
  | 0 => malformed
  | fuel + 1 => do
    match ← peek with
    | some (.directive d) =>
      advance
      match d with
      | .version major => if versioned || major ≠ 1 then malformed else directives true fuel
      | .handle h meaning =>
        if ((← get).handles.lookup h).isSome then malformed
        modify fun r => { r with handles := (h, meaning) :: r.handles }
        directives versioned fuel
      | .other => directives versioned fuel
    | _ => return

def defaultHandles : List (String × String) := [("!", "!"), ("!!", NodeKind.family)]

def skipEnds : Nat → Read Unit
  | 0 => return
  | fuel + 1 => do
    if ← accept .documentEnd then skipEnds fuel

def document (fuel : Nat) : Read (Option Nat) := do
  let withDefaults : Read Unit :=
    modify fun r => { r with handles := r.handles ++ defaultHandles }
  let root ← match ← peek with
    | none => return none
    | some (.directive _) | some .documentStart =>
      directives false fuel
      expect .documentStart
      withDefaults
      match ← peek with
      | none | some (.directive _) | some .documentStart | some .documentEnd => nothing
      | _ => node true false fuel
    | _ => withDefaults; node true false fuel
  skipEnds fuel
  if (← peek).isSome then malformed
  return some root

end Read

def documentOf (s : String) : Except Flaw (Nodes × Option Nat) := do
  let (tokens, flaw) := Token.ofText s
  let (root, r) ← (Read.document (4 * tokens.length + 8)).run { tokens, flaw }
  return (r.nodes, root)

end Tablewright.Markup

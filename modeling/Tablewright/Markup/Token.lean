import Tablewright.Markup.Block
import Tablewright.Markup.Tag

/-! The tokens of a marked-up text. Nesting by indentation becomes opening and closing tokens. A key
needs no mark of its own: whatever stands on one line before a colon is a key, so its token, and the
one that opens its map, are put in front of what was already read. -/

namespace Tablewright.Markup

inductive Token where
  | directive (d : Directive)
  | documentStart
  | documentEnd
  | openBlockList
  | openBlockMap
  | closeBlock
  | openList
  | closeList
  | openMap
  | closeMap
  | comma
  | item
  | key
  | value
  | reference (name : String)
  | anchor (name : String)
  | tag (handle : Option String) (suffix : String)
  | scalar (plain : Bool) (points : List Nat)
deriving DecidableEq, Repr

/-- A place where a key may have begun: the number of tokens before it, and whether only a key can
stand there. -/
structure KeyStart where
  tokens : Nat
  required : Bool
  index : Nat
  line : Nat
  column : Nat

/-- What has been read of a text. `outer` holds a possible key for every bracket that is open
around the current one. -/
structure Scan where
  cursor : Cursor
  tokens : Array Token := #[]
  indents : List Nat := []
  keyAllowed : Bool := true
  keyStart : Option KeyStart := none
  outer : List (Option KeyStart) := []

namespace Scan

def inBrackets (s : Scan) : Bool := !s.outer.isEmpty

def push (s : Scan) (t : Token) : Scan := { s with tokens := s.tokens.push t }

def closeBlocks (inner : Nat → Bool) : List Nat → Array Token → List Nat × Array Token
  | [], ts => ([], ts)
  | i :: rest, ts =>
    if inner i then closeBlocks inner rest (ts.push .closeBlock) else (i :: rest, ts)

def unindent (s : Scan) (inner : Nat → Bool) : Scan :=
  if s.inBrackets then s
  else
    let (indents, tokens) := closeBlocks inner s.indents s.tokens
    { s with indents, tokens }

def isDeeper (s : Scan) (column : Nat) : Bool := s.indents.head?.all (· < column)

def indent (s : Scan) (column : Nat) (opening : Token) : Scan :=
  if s.isDeeper column then { s.push opening with indents := column :: s.indents } else s

def dropKey (s : Scan) : Option Scan :=
  if s.keyStart.any (·.required) then none else some { s with keyStart := none }

def markKey (s : Scan) : Option Scan :=
  if !s.keyAllowed then some s
  else do
    let s ← s.dropKey
    let c := s.cursor
    let required := !s.inBrackets && s.indents.head? = some c.column
    some { s with keyStart := some ⟨s.tokens.size, required, c.index, c.line, c.column⟩ }

/-- A key stays on its line and is not longer than 1024 characters. -/
def KeyStart.isStale (k : KeyStart) (c : Cursor) : Bool :=
  k.line ≠ c.line || 1024 < c.index - k.index

def dropStale (c : Cursor) : Option KeyStart → Option (Option KeyStart)
  | none => some none
  | some k =>
    if KeyStart.isStale k c then (if k.required then none else some none) else some (some k)

def dropStaleKeys (s : Scan) : Option Scan := do
  let keyStart ← dropStale s.cursor s.keyStart
  let outer ← s.outer.mapM (dropStale s.cursor)
  some { s with keyStart, outer }

def skipBlank : Nat → Scan → Scan
  | 0, s => s
  | fuel + 1, s =>
    let c := s.cursor.skipSpaces
    let c := if c.here? = some '#' then (c.span fun ch => !isBreak ch).2 else c
    match c.lineBreak? with
    | some (_, c) =>
      skipBlank fuel { s with cursor := c, keyAllowed := s.keyAllowed || !s.inBrackets }
    | none => { s with cursor := c }

def take (s : Scan) (t : Token) (width : Nat) : Scan :=
  { s.push t with cursor := s.cursor.skip width }

def atMargin (s : Scan) : Option Scan := do
  let s ← (s.unindent fun _ => true).dropKey
  some { s with keyAllowed := false }

def directive (s : Scan) : Option Scan := do
  let (d, c) ← Directive.read? s.cursor
  some { (← s.atMargin).push (.directive d) with cursor := c }

def marker (s : Scan) (t : Token) : Option Scan := do
  some ((← s.atMargin).take t 3)

def openBracket (s : Scan) (t : Token) : Option Scan := do
  let s ← s.markKey
  some { s.take t 1 with keyAllowed := true, keyStart := none, outer := s.keyStart :: s.outer }

def closeBracket (s : Scan) (t : Token) : Option Scan := do
  let s ← s.dropKey
  match s.outer with
  | [] => none
  | keyStart :: outer => some { s.take t 1 with keyAllowed := false, keyStart, outer }

def comma (s : Scan) : Option Scan := do
  some { (← s.dropKey).take .comma 1 with keyAllowed := true }

def openBlock (s : Scan) (opening : Token) : Option Scan :=
  if s.inBrackets then some s
  else if s.keyAllowed then some (s.indent s.cursor.column opening)
  else none

def item (s : Scan) : Option Scan := do
  let s ← (← s.openBlock .openBlockList).dropKey
  some { s.take .item 1 with keyAllowed := true }

def key (s : Scan) : Option Scan := do
  let s ← (← s.openBlock .openBlockMap).dropKey
  some { s.take .key 1 with keyAllowed := !s.inBrackets }

def insertKey (s : Scan) (k : KeyStart) : Scan :=
  let tokens := s.tokens.insertIdxIfInBounds k.tokens .key
  if !s.inBrackets && s.isDeeper k.column then
    { s with
      tokens := tokens.insertIdxIfInBounds k.tokens .openBlockMap
      indents := k.column :: s.indents }
  else { s with tokens }

def value (s : Scan) : Option Scan := do
  match s.keyStart with
  | some k =>
    let s := { s with keyStart := none }.insertKey k
    some { s.take .value 1 with keyAllowed := false }
  | none =>
    let s ← s.openBlock .openBlockMap
    some { s.take .value 1 with keyAllowed := !s.inBrackets }

def keyed (s : Scan) (read : Cursor → Except Flaw (Token × Cursor)) : Except Flaw Scan := do
  let s ← orMalformed s.markKey
  let (t, c) ← read s.cursor
  return { s.push t with cursor := c, keyAllowed := false }

def quotedText (double : Bool) (c : Cursor) : Except Flaw (Token × Cursor) :=
  (quoted double c).map fun r => (.scalar false r.1, r.2)

def named (make : String → Token) (c : Cursor) : Except Flaw (Token × Cursor) :=
  orMalformed ((anchorName c.next).map fun r => (make r.1, r.2))

def blockText (s : Scan) (fold : Bool) : Option Scan := do
  let least := match s.indents with
    | [] => 1
    | i :: _ => i + 1
  let (text, c) ← block fold least s.cursor
  let s ← s.dropKey
  some { s.push (.scalar false (points text)) with cursor := c, keyAllowed := true }

/-- The characters of a plain text up to where it may end: before white space, before a colon that
makes it a key, and inside brackets before the marks of those. -/
def plainRun (inBrackets : Bool) : List Char → List Char
  | [] => []
  | ch :: rest =>
    let ends := endsWord (some ch) ||
      (ch = ':' && (endsWord rest.head? ||
        inBrackets && rest.head?.any ",[]\x7b\x7d".toList.contains)) ||
      (inBrackets && ",?[]\x7b\x7d".toList.contains ch)
    if ends then [] else ch :: plainRun inBrackets rest

def plainBreaks : Nat → Cursor → Option (List Char) × Cursor
  | 0, c => (none, c)
  | fuel + 1, c =>
    if c.isAnyMarker && c.column = 0 then (none, c)
    else
      let c := c.skipSpaces
      match c.lineBreak? with
      | some (b, c) =>
        let (breaks, c) := plainBreaks fuel c
        (breaks.map (b :: ·), c)
      | none => (some [], c)

def plainSpace (c : Cursor) : List Char × Bool × Cursor :=
  let (spaces, c) := c.span (· = ' ')
  match c.lineBreak? with
  | none => (spaces, false, c)
  | some (b, c) =>
    match plainBreaks (c.rest.length + 1) c with
    | (some breaks, c) => (folded b breaks, true, c)
    | (none, c) => ([], true, c)

def plainText (inBrackets : Bool) (least : Nat) : Nat → Cursor → List Char × Bool × Cursor
  | 0, c => ([], false, c)
  | fuel + 1, c =>
    let run := plainRun inBrackets c.rest
    let (space, broken, c') := plainSpace (c.skip run.length)
    let ends := space.isEmpty || c'.here? = some '#' || (!inBrackets && c'.column < least) ||
      (plainRun inBrackets c'.rest).isEmpty
    if ends then (run, broken, c')
    else
      let (more, broken, after) := plainText inBrackets least fuel c'
      (run ++ space ++ more, broken, after)

def plain (s : Scan) : Option Scan := do
  let s ← s.markKey
  let least := match s.indents with
    | [] => 0
    | i :: _ => i + 1
  let (text, broken, c) := plainText s.inBrackets least (s.cursor.rest.length + 1) s.cursor
  some { s.push (.scalar true (points text)) with cursor := c, keyAllowed := broken }

def startsPlain (s : Scan) (ch : Char) : Bool :=
  let next := s.cursor.peek? 1
  (!endsWord (some ch) && !"-?:,[]\x7b\x7d#&*!|>'\"%@\x60".toList.contains ch) ||
    (!endsWord next && (ch = '-' || (!s.inBrackets && (ch = '?' || ch = ':'))))

def token (s : Scan) (ch : Char) : Except Flaw Scan :=
  let c := s.cursor
  let spaced := endsWord (c.peek? 1)
  let atMargin := c.column = 0
  match ch with
  | '*' => s.keyed (named .reference)
  | '&' => s.keyed (named .anchor)
  | '!' => s.keyed fun c => orMalformed ((tag? c).map fun r => (.tag r.1.1 r.1.2, r.2))
  | '\'' => s.keyed (quotedText false)
  | '"' => s.keyed (quotedText true)
  | _ =>
    orMalformed (
      if atMargin && ch = '%' then s.directive
      else if atMargin && c.isMarker "---" then s.marker .documentStart
      else if atMargin && c.isMarker "..." then s.marker .documentEnd
      else match ch with
        | '[' => s.openBracket .openList
        | '{' => s.openBracket .openMap
        | ']' => s.closeBracket .closeList
        | '}' => s.closeBracket .closeMap
        | ',' => s.comma
        | _ =>
          if ch = '-' && spaced then s.item
          else if ch = '?' && (s.inBrackets || spaced) then s.key
          else if ch = ':' && (s.inBrackets || spaced) then s.value
          else if ch = '|' && !s.inBrackets then s.blockText false
          else if ch = '>' && !s.inBrackets then s.blockText true
          else if s.startsPlain ch then s.plain
          else none)

/-- How many tokens are settled: no key can be put in front of them any more. -/
def settled (s : Scan) : Nat :=
  let open_ := (s.keyStart :: s.outer).filterMap fun k =>
    k.bind fun k => if KeyStart.isStale k s.cursor then none else some k.tokens
  open_.foldl min s.tokens.size

def step (s : Scan) : Except Flaw (Option Scan) := do
  let s ← orMalformed (skipBlank (s.cursor.rest.length + 1) s).dropStaleKeys
  match s.cursor.rest with
  | [] => return none
  | ch :: _ => return some (← (s.unindent fun i => s.cursor.column < i).token ch)

/-- Reads all tokens; every one takes at least a character. Where a flaw ends the reading there are
the tokens that were settled by then. -/
def run : Nat → Scan → List Token × Option Flaw
  | 0, s => (s.tokens.toList, some .malformed)
  | fuel + 1, s =>
    match s.step with
    | .ok (some s) => run fuel s
    | .ok none =>
      match ((skipBlank (s.cursor.rest.length + 1) s).unindent fun _ => true).dropKey with
      | some s => (s.tokens.toList, none)
      | none => (s.tokens.toList, some .malformed)
    | .error flaw => (s.tokens.toList.take s.settled, some flaw)

end Scan

def Token.ofText (s : String) : List Token × Option Flaw :=
  let c := Cursor.ofText s
  if !c.rest.all isAllowed then ([], some .malformed)
  else
    let c := if c.here? = some '\ufeff' then c.next else c
    (Scan.mk c #[] [] true none []).run (c.rest.length + 2)

end Tablewright.Markup

import Tablewright.Text.Search

namespace Tablewright.Markup

structure Cursor where
  rest : List Char
  index : Nat := 0
  line : Nat := 0
  column : Nat := 0

def isAllowed (c : Char) : Bool :=
  let n := c.toNat
  n = 9 || n = 10 || n = 13 || (0x20 ≤ n && n ≤ 0x7e) || n = 0x85 ||
    (0xa0 ≤ n && n ≤ 0xfffd) || 0x10000 ≤ n

def isBreak (c : Char) : Bool := c = '\n' || c = '\x85' || c = '\u2028' || c = '\u2029'

def isSpace (c : Char) : Bool := c = ' ' || c = '\t'

def endsLine (c : Option Char) : Bool := c.all isBreak

def endsField (c : Option Char) : Bool := endsLine c || c = some ' '

def endsWord (c : Option Char) : Bool := endsField c || c = some '\t'

def isNameChar (c : Char) : Bool := c.isAlphanum || c = '-' || c = '_'

namespace Cursor

def ofText (s : String) : Cursor := ⟨s.toList, 0, 0, 0⟩

def peek? (c : Cursor) (n : Nat) : Option Char := c.rest[n]?

def here? (c : Cursor) : Option Char := c.rest.head?

/-- One character on. A byte order mark takes no column. -/
def next (c : Cursor) : Cursor :=
  match c.rest with
  | [] => c
  | ch :: rest =>
    if isBreak ch then ⟨rest, c.index + 1, c.line + 1, 0⟩
    else ⟨rest, c.index + 1, c.line, if ch = '\ufeff' then c.column else c.column + 1⟩

def skip (c : Cursor) : Nat → Cursor
  | 0 => c
  | n + 1 => c.next.skip n

def span (c : Cursor) (p : Char → Bool) : List Char × Cursor :=
  let run := c.rest.takeWhile p
  (run, c.skip run.length)

def skipSpaces (c : Cursor) : Cursor := (c.span (· = ' ')).2

def skipIndent (c : Cursor) (indent : Nat) : Cursor :=
  c.skip ((c.rest.take (indent - c.column)).takeWhile (· = ' ')).length

def lineBreak? (c : Cursor) : Option (Char × Cursor) :=
  match c.here? with
  | some ch => if isBreak ch then some (if ch = '\x85' then '\n' else ch, c.next) else none
  | none => none

def isMarker (c : Cursor) (mark : String) : Bool :=
  mark.toList.isPrefixOf c.rest && endsWord (c.peek? mark.length)

def isAnyMarker (c : Cursor) : Bool := c.isMarker "---" || c.isMarker "..."

def expect? (c : Cursor) (ch : Char) : Option Cursor :=
  if c.here? = some ch then some c.next else none

def endLine? (c : Cursor) : Option Cursor :=
  let c := c.skipSpaces
  let c := if c.here? = some '#' then (c.span fun ch => !isBreak ch).2 else c
  match c.lineBreak? with
  | some (_, after) => some after
  | none => if c.rest.isEmpty then some c else none

end Cursor

/-- A folded line break: one becomes a space, of more the first is dropped. -/
def folded (first : Char) (others : List Char) : List Char :=
  if first ≠ '\n' then first :: others else if others.isEmpty then [' '] else others

end Tablewright.Markup

import Tablewright.Markup.Cursor
import Tablewright.Number.Reading

namespace Tablewright.Markup

inductive Chomp where
  | strip
  | clip
  | keep
deriving DecidableEq

structure BlockHeader where
  chomp : Chomp := .clip
  indent : Option Nat := none

namespace BlockHeader

def takeChomp (c : Cursor) : Chomp × Cursor :=
  match c.here? with
  | some '+' => (.keep, c.next)
  | some '-' => (.strip, c.next)
  | _ => (.clip, c)

def takeIndent? (c : Cursor) : Option (Option Nat × Cursor) :=
  match c.here? with
  | some ch =>
    if ch = '0' then none
    else if isDigit ch then some (some (digitValue ch), c.next)
    else some (none, c)
  | none => some (none, c)

def read? (c : Cursor) : Option (BlockHeader × Cursor) := do
  let (chomp, c) := takeChomp c
  let (indent, c) ← takeIndent? c
  let (chomp, c) := if chomp = .clip && indent.isSome then takeChomp c else (chomp, c)
  if endsField c.here? then some (⟨chomp, indent⟩, ← c.endLine?) else none

end BlockHeader

def leadingBreaks : Nat → Cursor → List Char × Nat × Cursor
  | 0, c => ([], 0, c)
  | fuel + 1, c =>
    match c.lineBreak? with
    | some (b, c) =>
      let (breaks, widest, c) := leadingBreaks fuel c
      (b :: breaks, widest, c)
    | none =>
      if c.here? = some ' ' then
        let (breaks, widest, after) := leadingBreaks fuel c.next
        (breaks, max c.next.column widest, after)
      else ([], 0, c)

def blockBreaks (indent : Nat) : Nat → Cursor → List Char × Cursor
  | 0, c => ([], c)
  | fuel + 1, c =>
    let c := c.skipIndent indent
    match c.lineBreak? with
    | some (b, c) =>
      let (breaks, c) := blockBreaks indent fuel c
      (b :: breaks, c)
    | none => ([], c)

/-- The lines of a block. `before` holds the breaks of the blank lines before the next line, and
`last` the break that ended the line before those. -/
def blockLines (fold : Bool) (chomp : Chomp) (indent : Nat) :
    Nat → Cursor → List Char → List Char → List Char × Cursor
  | 0, c, _, _ => ([], c)
  | fuel + 1, c, last, before =>
    if c.column ≠ indent || c.rest.isEmpty then
      (match chomp with
        | .strip => []
        | .clip => last
        | .keep => last ++ before, c)
    else
      let startsText (c : Cursor) := !c.here?.any isSpace
      let (line, c') := c.span fun ch => !isBreak ch
      let (last', c') := match c'.lineBreak? with
        | some (b, c') => ([b], c')
        | none => ([], c')
      let (before', c') := blockBreaks indent (c'.rest.length + 1) c'
      let goesOn := c'.column = indent && !c'.rest.isEmpty
      let joint :=
        if !goesOn then []
        else if fold && last' = ['\n'] && startsText c && startsText c' then
          if before'.isEmpty then [' '] else before'
        else last' ++ before'
      let (text, after) := blockLines fold chomp indent fuel c' last' before'
      (line ++ joint ++ text, after)

def block (fold : Bool) (least : Nat) (c : Cursor) : Option (List Char × Cursor) := do
  let (header, c) ← BlockHeader.read? c.next
  let fuel := c.rest.length + 1
  let (breaks, indent, c) := match header.indent with
    | some n =>
      let indent := least + n - 1
      let (breaks, c) := blockBreaks indent fuel c
      (breaks, indent, c)
    | none =>
      let (breaks, widest, c) := leadingBreaks fuel c
      (breaks, max least widest, c)
  let (text, after) := blockLines fold header.chomp indent fuel c [] breaks
  if c.column = indent && !c.rest.isEmpty then some (breaks ++ text, after)
  else some (text, after)

end Tablewright.Markup

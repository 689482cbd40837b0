import Tablewright.Markup.Cursor
import Tablewright.Markup.Flaw
import Tablewright.Number.Reading

/-! Quoted texts. In single quotes a quote is written twice; in double quotes a backslash starts an
escape. Line breaks inside the quotes are folded. An escape may stand for half of a surrogate pair,
so a quoted text is a run of code points. -/

namespace Tablewright.Markup

def escapes : List (Char × Char) :=
  [('0', '\x00'), ('a', '\x07'), ('b', '\x08'), ('t', '\t'), ('\t', '\t'), ('n', '\n'),
   ('v', '\x0b'), ('f', '\x0c'), ('r', '\r'), ('e', '\x1b'), (' ', ' '), ('"', '"'),
   ('\\', '\\'), ('/', '/'), ('N', '\x85'), ('_', '\xa0'), ('L', '\u2028'), ('P', '\u2029')]

def codeWidth? : Char → Option Nat
  | 'x' => some 2
  | 'u' => some 4
  | 'U' => some 8
  | _ => none

def isHexDigit (c : Char) : Bool := digitValue c < 16

/-- A code point by its number: there are none beyond the last plane, and a number that needs more
than 31 bits is too large to be looked at. -/
def codePoint (n : Nat) : Except Flaw Nat :=
  if n < 0x110000 then .ok n
  else if n < 0x80000000 then .error (.senseless "chr() arg not in range(0x110000)")
  else .error (.fault .codeTooLarge)

def points (cs : List Char) : List Nat := cs.map Char.toNat

def blankLines : Nat → Cursor → Option (List Char × Cursor)
  | 0, _ => none
  | fuel + 1, c =>
    if c.isAnyMarker then none
    else
      let c := (c.span isSpace).2
      match c.lineBreak? with
      | some (b, c) => (blankLines fuel c).map fun r => (b :: r.1, r.2)
      | none => some ([], c)

def escape (c : Cursor) : Except Flaw (List Nat × Cursor) :=
  match c.lineBreak? with
  | some (_, after) =>
    (orMalformed (blankLines (after.rest.length + 1) after)).map fun r => (points r.1, r.2)
  | none => do
    let ch ← orMalformed c.here?
    match escapes.lookup ch with
    | some x => return ([x.toNat], c.next)
    | none =>
      let width ← orMalformed (codeWidth? ch)
      let digits := c.next.rest.take width
      if digits.length < width || !digits.all isHexDigit then throw .malformed
      return ([← codePoint (readBase 16 digits)], c.next.skip width)

def quotedSpace (c : Cursor) : Option (List Char × Cursor) :=
  let (spaces, c) := c.span isSpace
  match c.lineBreak? with
  | none => some (spaces, c)
  | some (b, c) => (blankLines (c.rest.length + 1) c).map fun r => (folded b r.1, r.2)

def quotedRest (double : Bool) : Nat → Cursor → Except Flaw (List Nat × Cursor)
  | 0, _ => throw .malformed
  | fuel + 1, c => do
    let more (r : List Nat × Cursor) : Except Flaw (List Nat × Cursor) :=
      (quotedRest double fuel r.2).map fun s => (r.1 ++ s.1, s.2)
    let ch ← orMalformed c.here?
    if double && ch = '"' then return ([], c.next)
    else if !double && ch = '\'' then
      if c.peek? 1 = some '\'' then more ([ch.toNat], c.skip 2) else return ([], c.next)
    else if double && ch = '\\' then more (← escape c.next)
    else if isSpace ch || isBreak ch then
      let (space, c) ← orMalformed (quotedSpace c)
      more (points space, c)
    else more ([ch.toNat], c.next)

def quoted (double : Bool) (c : Cursor) : Except Flaw (List Nat × Cursor) :=
  quotedRest double (c.rest.length + 1) c.next

end Tablewright.Markup

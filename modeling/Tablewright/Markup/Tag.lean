import Tablewright.Markup.Quoted

namespace Tablewright.Markup

def anchorName (c : Cursor) : Option (String × Cursor) :=
  let (name, c) := c.span isNameChar
  let ends := endsWord c.here? || c.here?.any "?:,]\x7d%@\x60".toList.contains
  if name.isEmpty || !ends then none else some (String.ofList name, c)

def isTagChar (c : Char) : Bool := c.isAlphanum || "-;/?:@&=+$,_.!~*'()[]".toList.contains c

def percentBytes? : List Char → Option (List UInt8)
  | [] => some []
  | '%' :: a :: b :: rest =>
    if isHexDigit a && isHexDigit b then
      (percentBytes? rest).map (UInt8.ofNat (readBase 16 [a, b]) :: ·)
    else none
  | _ => none

def percentRun : List Char → List Char
  | '%' :: a :: b :: rest => '%' :: a :: b :: percentRun rest
  | '%' :: rest => '%' :: rest
  | _ => []

def tagText? : Nat → Cursor → Option (List Char × Cursor)
  | 0, _ => none
  | fuel + 1, c => do
    let (run, c) := c.span isTagChar
    if c.here? = some '%' then
      let escaped := percentRun c.rest
      let text ← String.fromUTF8? ⟨(← percentBytes? escaped).toArray⟩
      let (more, c) ← tagText? fuel (c.skip escaped.length)
      some (run ++ text.toList ++ more, c)
    else some (run, c)

def tagSuffix? (c : Cursor) : Option (String × Cursor) := do
  let (text, after) ← tagText? (c.rest.length + 1) c
  if text.isEmpty then none else some (String.ofList text, after)

def tagHandle? (c : Cursor) : Option (String × Cursor) := do
  let c' ← c.expect? '!'
  if c'.here? = some ' ' then some ("!", c')
  else
    let (name, c') := c'.span isNameChar
    let c' ← c'.expect? '!'
    some (s!"!{String.ofList name}!", c')

def tag? (c : Cursor) : Option ((Option String × String) × Cursor) := do
  let (tag, c) ← match c.peek? 1 with
    | some '<' => do
      let (suffix, c) ← tagSuffix? (c.skip 2)
      some ((none, suffix), ← c.expect? '>')
    | ch =>
      if endsWord ch then some ((none, "!"), c.next)
      else do
        let (handle, c) ←
          if (c.next.span fun ch => !endsField (some ch)).1.contains '!' then tagHandle? c
          else some ("!", c.next)
        let (suffix, c) ← tagSuffix? c
        some ((some handle, suffix), c)
  if endsField c.here? then some (tag, c) else none

inductive Directive where
  | version (major : Nat)
  | handle (name meaning : String)
  | other
deriving DecidableEq, Repr

namespace Directive

def number? (c : Cursor) : Option (Nat × Cursor) :=
  let (digits, c) := c.span isDigit
  if digits.isEmpty then none else some (readNat digits, c)

def read? (c : Cursor) : Option (Directive × Cursor) := do
  let (name, c) := c.next.span isNameChar
  if name.isEmpty || !endsField c.here? then none
  let (directive, c) ← match String.ofList name with
    | "YAML" => do
      let (major, c) ← number? c.skipSpaces
      let (_, c) ← number? (← c.expect? '.')
      if endsField c.here? then some (version major, c) else none
    | "TAG" => do
      let (name, c) ← tagHandle? c.skipSpaces
      if c.here? ≠ some ' ' then none
      let (meaning, c) ← tagSuffix? c.skipSpaces
      if endsField c.here? then some (handle name meaning, c) else none
    | _ => some (other, (c.span fun ch => !isBreak ch).2)
  some (directive, ← c.endLine?)

end Directive

end Tablewright.Markup

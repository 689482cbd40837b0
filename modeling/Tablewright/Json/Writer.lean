import Tablewright.Value

namespace Tablewright.Json

def hexUnit (n : Nat) : String := "\\u" ++ Text.hex 4 n

def charText (c : Char) : String :=
  let n := c.toNat
  if c = '"' then "\\\""
  else if c = '\\' then "\\\\"
  else if c = '\n' then "\\n"
  else if c = '\r' then "\\r"
  else if c = '\t' then "\\t"
  else if n = 8 then "\\b"
  else if n = 12 then "\\f"
  else if 0x20 ≤ n && n ≤ 0x7e then c.toString
  else if n < 0x10000 then hexUnit n
  else
    let m := n - 0x10000
    hexUnit (0xd800 + m / 0x400) ++ hexUnit (0xdc00 + m % 0x400)

def textText (s : String) : String := "\"" ++ String.join (s.toList.map charText) ++ "\""

def newLine (level : Nat) : String := "\n" ++ String.ofList (List.replicate (2 * level) ' ')

def bracketed (opening closing : String) (level : Nat) (parts : List String) : String :=
  if parts.isEmpty then opening ++ closing
  else
    let line := newLine (level + 1)
    opening ++ line ++ String.intercalate ("," ++ line) parts ++ newLine level ++ closing

mutual

def render (level : Nat) : Value → String
  | .null => "null"
  | .bool b => if b then "true" else "false"
  | .int n => toString n
  | .text s => textText s
  | .list items => bracketed "[" "]" level (renderItems level items)
  | .map entries => bracketed "\x7b" "\x7d" level (renderEntries level entries)
  | v => v.shown

def renderItems (level : Nat) : List Value → List String
  | [] => []
  | v :: rest => render (level + 1) v :: renderItems level rest

def renderEntries (level : Nat) : List (Value × Value) → List String
  | [] => []
  | (k, v) :: rest =>
    (textText k.displayed ++ ": " ++ render (level + 1) v) :: renderEntries level rest

end

end Tablewright.Json

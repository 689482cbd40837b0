import Tablewright.Text.Search

namespace Tablewright.Text

/-- The ranges of the bytes that follow a first byte. -/
def trail? (first : UInt8) : Option (List (UInt8 × UInt8)) :=
  let any : UInt8 × UInt8 := (0x80, 0xBF)
  if first < 0x80 then some []
  else if first < 0xC2 then none
  else if first < 0xE0 then some [any]
  else if first = 0xE0 then some [(0xA0, 0xBF), any]
  else if first = 0xED then some [(0x80, 0x9F), any]
  else if first < 0xF0 then some [any, any]
  else if first = 0xF0 then some [(0x90, 0xBF), any, any]
  else if first < 0xF4 then some [any, any, any]
  else if first = 0xF4 then some [(0x80, 0x8F), any, any]
  else none

structure Flaw where
  start : Nat
  bytes : List UInt8
  reason : String

/-- The first flaw in the rest of some bytes, after those of a character that are read and with the
ranges of those that it lacks. -/
def flawFrom (start : Nat) (read : List UInt8) : List (UInt8 × UInt8) → List UInt8 → Option Flaw
  | [], [] => none
  | _ :: _, [] => some ⟨start, read, "unexpected end of data"⟩
  | [], b :: rest =>
    let start := start + read.length
    match trail? b with
    | some ranges => flawFrom start [b] ranges rest
    | none => some ⟨start, [b], "invalid start byte"⟩
  | (least, most) :: ranges, b :: rest =>
    if least ≤ b && b ≤ most then flawFrom start (read ++ [b]) ranges rest
    else some ⟨start, read, "invalid continuation byte"⟩

def Flaw.message (f : Flaw) : String :=
  let place := match f.bytes with
    | [b] => s!"byte 0x{hex 2 b.toNat} in position {f.start}"
    | bytes => s!"bytes in position {f.start}-{f.start + bytes.length - 1}"
  s!"'utf-8' codec can't decode {place}: {f.reason}"

end Tablewright.Text

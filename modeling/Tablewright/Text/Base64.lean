
namespace Tablewright.Text

def base64Digit? (n : Nat) : Option Nat :=
  if 65 ≤ n && n ≤ 90 then some (n - 65)
  else if 97 ≤ n && n ≤ 122 then some (n - 71)
  else if 48 ≤ n && n ≤ 57 then some (n + 4)
  else if n = 43 then some 62
  else if n = 47 then some 63
  else none

/-- Reads on in a group of four. `place` letters of it are read, the last of which left `kept` of
its bits over; `pads` equals signs were met since. What is neither letter nor equals sign is passed
over, and equals signs that fill the group end the text. -/
def base64From (place kept pads : Nat) : List Nat → Option (List UInt8)
  | [] => if place = 0 then some [] else none
  | n :: rest =>
    if n = 61 then
      if 2 ≤ place && 4 ≤ place + pads + 1 then some []
      else base64From place kept (if 2 ≤ place then pads + 1 else pads) rest
    else match base64Digit? n with
      | none => base64From place kept pads rest
      | some d =>
        match place with
        | 0 => base64From 1 d 0 rest
        | 1 => (base64From 2 (d % 16) 0 rest).map (UInt8.ofNat (kept * 4 + d / 16) :: ·)
        | 2 => (base64From 3 (d % 4) 0 rest).map (UInt8.ofNat (kept * 16 + d / 4) :: ·)
        | _ => (base64From 0 0 0 rest).map (UInt8.ofNat (kept * 64 + d) :: ·)

def base64? (points : List Nat) : Option (List UInt8) :=
  if points.all (· < 128) then base64From 0 0 0 points else none

end Tablewright.Text

/-! Case mapping of characters by tables of code point runs: a run sends every `step`-th code point
from `first` to `last` to the one `shift` places further on. -/

namespace Tablewright.Text

structure CaseRun where
  first : Nat
  last : Nat
  step : Nat
  shift : Int

def CaseRun.covers (r : CaseRun) (n : Nat) : Bool :=
  r.first ≤ n && n ≤ r.last && (n - r.first) % r.step == 0

def mapCase (spelled : List (Nat × List Nat)) (runs : List CaseRun) (c : Char) : List Char :=
  match spelled.lookup c.toNat with
  | some codes => codes.map Char.ofNat
  | none =>
    match runs.find? (·.covers c.toNat) with
    | some r => [Char.ofNat (c.toNat + r.shift).toNat]
    | none => [c]

/-- The code points that lower case and an ASCII search have in common: the capital letters and
the Kelvin sign, the one character outside ASCII whose lower case is a single ASCII letter. -/
def lowerChar (c : Char) : Char :=
  if c = '\u212a' then 'k' else c.toLower

def lowercase (s : String) : String := String.ofList (s.toList.map lowerChar)

end Tablewright.Text

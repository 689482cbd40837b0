import Tablewright.Text.Blank

/-! Decimal digits of all scripts. In every script the ten digits follow each other. -/

namespace Tablewright.Text

def zeros : List Nat := [
  48, 1632, 1776, 1984, 2406, 2534, 2662, 2790, 2918, 3046, 3174, 3302, 3430, 3558, 3664, 3792,
  3872, 4160, 4240, 6112, 6160, 6470, 6608, 6784, 6800, 6992, 7088, 7232, 7248, 42528, 43216,
  43264, 43472, 43504, 43600, 44016, 65296, 66720, 68912, 69734, 69872, 69942, 70096, 70384,
  70736, 70864, 71248, 71360, 71472, 71904, 72016, 72784, 73040, 73120, 92768, 92864, 93008,
  120782, 120792, 120802, 120812, 120822, 123200, 123632, 125264, 130032]

def digitOf? (c : Char) : Option Nat :=
  (zeros.find? fun z => z ≤ c.toNat && c.toNat < z + 10).map fun z => c.toNat - z

/-- The ASCII character that a character stands for in a number: digits of other scripts are digits,
and blanks outside ASCII are spaces. What stands for none becomes a question mark. -/
def numeral (c : Char) : Char :=
  if c.toNat < 127 then c
  else if isBlank c then ' '
  else match digitOf? c with
    | some n => Char.ofNat (48 + n)
    | none => '?'

def isNumeralBlank (c : Char) : Bool := c = ' ' || (9 ≤ c.toNat && c.toNat ≤ 13)

end Tablewright.Text

import Tablewright.Number.Double
import Tablewright.Text.Search

namespace Tablewright

def isDigit (c : Char) : Bool := '0' ≤ c && c ≤ '9'

def digitValue (c : Char) : Nat :=
  if isDigit c then c.toNat - '0'.toNat
  else if 'a' ≤ c && c ≤ 'z' then c.toNat - 'a'.toNat + 10
  else if 'A' ≤ c && c ≤ 'Z' then c.toNat - 'A'.toNat + 10
  else 36

def readBase (base : Nat) (cs : List Char) : Nat :=
  cs.foldl (fun n c => n * base + digitValue c) 0

def readNat (cs : List Char) : Nat := readBase 10 cs

def takeSign : List Char → Bool × List Char
  | '-' :: rest => (true, rest)
  | '+' :: rest => (false, rest)
  | cs => (false, cs)

def signed (negative : Bool) (n : Nat) : Int := if negative then -(n : Int) else n

def readInt? (cs : List Char) : Option Int :=
  let (negative, digits) := takeSign cs
  if digits.isEmpty || !digits.all isDigit then none else some (signed negative (readNat digits))

/-- Digits, at most one point among them, and an exponent: the digits without the point and the
power of ten of the last one. -/
def readDecimal? (cs : List Char) : Option (Nat × Int) :=
  let whole := cs.takeWhile isDigit
  let rest := cs.dropWhile isDigit
  let (places, rest) := match rest with
    | '.' :: rest => (rest.takeWhile isDigit, rest.dropWhile isDigit)
    | rest => ([], rest)
  if whole.isEmpty && places.isEmpty then none
  else
    let digits := readNat (whole ++ places)
    let unit : Int := -(places.length : Int)
    match rest with
    | [] => some (digits, unit)
    | c :: rest =>
      if c = 'e' || c = 'E' then (readInt? rest).map fun e => (digits, unit + e) else none

def Double.read? (cs : List Char) : Option Double :=
  let (negative, rest) := takeSign cs
  let put (x : Double) : Double := if negative then x.neg else x
  match readDecimal? rest with
  | some (digits, exp) => some (Double.ofDecimal negative digits exp)
  | none =>
    let name := rest.map Char.toLower
    if name = "inf".toList || name = "infinity".toList then some (put infinity)
    else if name = "nan".toList then some notANumber
    else none

end Tablewright

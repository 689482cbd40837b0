import Tablewright.Number.Double
import Tablewright.Text.Search

/-! The fewest decimal digits that read back as a given number, and the layout in which numbers are
written. The digits are found by exact arithmetic: on a grid of `n` digits the only candidates are
the two neighbours of the number. -/

namespace Tablewright.Double

structure Decimal where
  digits : Nat
  exp : Int
deriving DecidableEq, Repr

def compareScaled (a : Nat) (i : Int) (n : Nat) (j : Int) : Ordering :=
  compare (a * Nat.pow 10 i.toNat * Nat.pow 2 (-j).toNat)
    (n * Nat.pow 2 j.toNat * Nat.pow 10 (-i).toNat)

def readsBack (x : Double) (d : Decimal) : Bool :=
  let low := if x.narrowBelow then 4 * x.factor - 1 else 4 * x.factor - 2
  let even := x.factor % 2 == 0
  let below := compareScaled d.digits d.exp low (x.power - 2)
  let above := compareScaled d.digits d.exp (4 * x.factor + 2) (x.power - 2)
  (below == .gt || (even && below == .eq)) && (above == .lt || (even && above == .eq))

def scaleFrom (x : Double) (k₀ : Int) : Nat → Int
  | 0 => k₀
  | fuel + 1 =>
    if compareScaled 1 k₀ x.factor x.power == .gt then k₀ else scaleFrom x (k₀ + 1) fuel

/-- One less than the number of decimal digits before the point is never more than the count that
three tenths of the binary digits suggest. -/
def scale (x : Double) : Int :=
  let binary := (x.factor.log2 : Int) + x.power
  scaleFrom x ((binary * 30103) / 100000 - 1) 5

def floorOn (x : Double) (exp : Int) : Nat :=
  (x.factor * Nat.pow 2 x.power.toNat * Nat.pow 10 (-exp).toNat) /
    (Nat.pow 2 (-x.power).toNat * Nat.pow 10 exp.toNat)

/-- Of the two neighbours on a grid the one that reads back; of two the nearer; of two equally near
the even one. -/
def pickOn (x : Double) (exp : Int) : Option Decimal :=
  let low : Decimal := ⟨x.floorOn exp, exp⟩
  let high : Decimal := ⟨x.floorOn exp + 1, exp⟩
  match x.readsBack low, x.readsBack high with
  | true, false => some low
  | false, true => some high
  | false, false => none
  | true, true =>
    match compareScaled (2 * low.digits + 1) exp (2 * x.factor) x.power with
    | .gt => some low
    | .lt => some high
    | .eq => some (if low.digits % 2 = 0 then low else high)

def shortestFrom (x : Double) (k : Int) (n : Nat) : Nat → Decimal
  | 0 => ⟨x.floorOn (k - n), k - n⟩
  | fuel + 1 =>
    match x.pickOn (k - n) with
    | some d => d
    | none => shortestFrom x k (n + 1) fuel

def shortest (x : Double) : Decimal := shortestFrom x x.scale 1 17

structure Layout where
  /-- the least exponent of the leading digit that is written positionally -/
  positionalFrom : Int
  /-- the least exponent of the leading digit that no longer is -/
  positionalBelow : Int
  exponentWidth : Nat
  notANumber : String
  infinity : String

def Layout.exponent (l : Layout) (e : Int) : String :=
  (if e < 0 then "e-" else "e+") ++ Text.padded l.exponentWidth e.natAbs

def Layout.write (l : Layout) (digits : List Char) (e : Int) : String :=
  if l.positionalFrom ≤ e && e < l.positionalBelow then
    if e < 0 then
      "0." ++ String.ofList (List.replicate (-e - 1).toNat '0' ++ digits)
    else
      let whole := digits.take (e.toNat + 1)
      let rest := digits.drop (e.toNat + 1)
      String.ofList (whole ++ List.replicate (e.toNat + 1 - whole.length) '0') ++ "." ++
        String.ofList (if rest.isEmpty then ['0'] else rest)
  else
    let rest := digits.drop 1
    String.ofList (digits.take 1) ++
      (if rest.isEmpty then "" else "." ++ String.ofList rest) ++ l.exponent e

def dropZeros (digits : List Char) : List Char :=
  (digits.reverse.dropWhile (· == '0')).reverse

def Layout.render (l : Layout) (x : Double) : String :=
  if x.isNaN then l.notANumber
  else
    (if x.isNegative then "-" else "") ++
      (if !x.isFinite then l.infinity
      else if x.factor = 0 then l.write ['0'] 0
      else
        let d := x.shortest
        let digits := Nat.toDigits 10 d.digits
        l.write (dropZeros digits) (d.exp + digits.length - 1))

/-- Numbers are written positionally from a ten-thousandth up to ten quadrillion, always with a
point, and otherwise with a signed exponent of at least two digits. -/
def plainLayout : Layout := ⟨-4, 16, 2, "nan", "inf"⟩

def shown (x : Double) : String := plainLayout.render x

end Tablewright.Double

/-! Numbers in double precision, held by their bits so that equal values are equal terms. -/

namespace Tablewright

structure Double where
  bits : UInt64
deriving DecidableEq, Repr

namespace Double

def toFloat (x : Double) : Float := Float.ofBits x.bits

def ofFloat (f : Float) : Double := ⟨f.toBits⟩

def isNegative (x : Double) : Bool := x.bits >>> 63 == 1

def exponentBits (x : Double) : Nat := ((x.bits >>> 52) &&& 0x7ff).toNat

def fraction (x : Double) : Nat := (x.bits &&& 0xfffffffffffff).toNat

def isFinite (x : Double) : Bool := x.exponentBits != 0x7ff

def isNaN (x : Double) : Bool := !x.isFinite && x.fraction != 0

def infinity : Double := ⟨0x7ff0000000000000⟩

def notANumber : Double := ⟨0x7ff8000000000000⟩

def neg (x : Double) : Double := ⟨x.bits ^^^ 0x8000000000000000⟩

def zero : Double := ⟨0⟩

/-- The factor `m` in the size `m * 2 ^ q` of a finite number. -/
def factor (x : Double) : Nat :=
  if x.exponentBits = 0 then x.fraction else Nat.pow 2 52 + x.fraction

/-- The exponent `q` in the size `m * 2 ^ q` of a finite number. -/
def power (x : Double) : Int :=
  if x.exponentBits = 0 then -1074 else (x.exponentBits : Int) - 1075

/-- Below a power of two the next smaller number is only half a step away. -/
def narrowBelow (x : Double) : Bool := x.fraction == 0 && x.exponentBits > 1

def toInt? (x : Double) : Option Int :=
  if x.isFinite then
    let size : Option Nat :=
      if 0 ≤ x.power then some (x.factor * Nat.pow 2 x.power.toNat)
      else
        let unit := Nat.pow 2 (-x.power).toNat
        if x.factor % unit = 0 then some (x.factor / unit) else none
    size.map fun n => if x.isNegative then -(n : Int) else n
  else none

/-- The nearest number to `digits * 10 ^ exp`, ties to even. Exponents out of any number's reach
are settled by size alone. -/
def ofDecimal (negative : Bool) (digits : Nat) (exp : Int) : Double :=
  let scale := (Nat.toDigits 10 digits).length + exp
  let size : Double :=
    if digits = 0 || scale < -400 then zero
    else if 400 < scale then infinity
    else if 0 ≤ exp then ofFloat (Float.ofScientific digits false exp.toNat)
    else ofFloat (Float.ofScientific digits true (-exp).toNat)
  if negative then size.neg else size

def ofInt (n : Int) : Double := ofDecimal (n < 0) n.natAbs 0

def mul (x y : Double) : Double := ofFloat (x.toFloat * y.toFloat)

def add (x y : Double) : Double := ofFloat (x.toFloat + y.toFloat)

def le (x y : Double) : Bool := x.toFloat ≤ y.toFloat

def lt (x y : Double) : Bool := x.toFloat < y.toFloat

/-- Equal in value: the zeros are, and nothing is to not-a-number. -/
def same (x y : Double) : Bool := x.toFloat == y.toFloat

end Double

end Tablewright

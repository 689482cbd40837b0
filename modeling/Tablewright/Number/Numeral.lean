import Tablewright.Number.Reading
import Tablewright.Text.Digit
import Tablewright.Text.Shown

namespace Tablewright.Numeral

def baseMarks (base : Nat) : List Char :=
  match base with
  | 2 => ['b', 'B']
  | 8 => ['o', 'O']
  | 16 => ['x', 'X']
  | _ => []

def dropBaseMark (base : Nat) : List Char → List Char
  | '0' :: mark :: rest => if (baseMarks base).contains mark then rest else '0' :: mark :: rest
  | cs => cs

/-- How many digits a number may have, unless its base is a power of two. -/
def longest : Nat := 4300

def whole (base : Nat) (cs : List Char) : Except String Int :=
  let (negative, body) := takeSign ((cs.map Text.numeral).dropWhile Text.isNumeralBlank)
  let body := dropBaseMark base body
  let digits := body.takeWhile fun c => digitValue c < base
  let rest := (body.drop digits.length).dropWhile Text.isNumeralBlank
  if digits.isEmpty || !rest.isEmpty then
    let shown := String.ofList ((Text.shown (String.ofList cs)).toList.take 200)
    .error s!"invalid literal for int() with base {base}: {shown}"
  else if base = 10 && longest < digits.length then
    .error (s!"Exceeds the limit ({longest} digits) for integer string conversion: value has " ++
      s!"{digits.length} digits; use sys.set_int_max_str_digits() to increase the limit")
  else .ok (signed negative (readBase base digits))

def real (cs : List Char) : Except String Double :=
  match Double.read? (Text.dropEnds Text.isNumeralBlank (cs.map Text.numeral)) with
  | some x => .ok x
  | none => .error ("could not convert string to float: " ++ Text.shown (String.ofList cs))

end Tablewright.Numeral
